import MatrixDB.Cli.Cells
import MatrixDB.Cli.Limits

/-!
# Printed values

Every field of a printed row is the text of a word of some column, by the
type of that column.  Strings stand for codes in labels and projections; an
aggregate of codes is a number.
-/

namespace MatrixDB

open Lib CostArith Catalog

/-! ## Texts -/

/-- The text of a word of a column of numbers. -/
inductive NumberText (printDouble : UInt64 → Bytes) (v : UInt64) :
    MatrixType → Bytes → Prop where
  | unsigned : NumberText printDouble v .U32 (decimal v.toNat)
  | signed : NumberText printDouble v .I64 (signedDecimal v.toInt64.toInt)
  | double : NumberText printDouble v .F64 (printDouble v)

/-- The text of a word of a column: the string of a code, of a dictionary that
32 bits can count, and otherwise a number.  No string belongs to a code beyond
the dictionary. -/
structure TypedText {κ : Type} (printDouble : UInt64 → Bytes)
    (catalog : Catalog κ) (col v : UInt64) (text : Bytes) : Prop where
  string : ∀ dict, catalog.stringDicts.lookup col = some dict →
    0 < dict.length → dict.length < 2 ^ 32 →
      text = dict.getD v.toUInt32.toNat []
  number : catalog.stringDicts.lookup col = none →
    NumberText printDouble v (catalog.columnType col) text

/-- The text of an aggregate that a query has for a group. -/
structure AggregateShown {κ : Type} (printDouble : UInt64 → Bytes)
    (catalog : Catalog κ) (q : MatrixQuery) (g : Nat) (text : Bytes) :
    Prop where
  answer : ∃ out bits, catalog.Serves q out ∧ out[g]? = some bits ∧
    (q.agg = AGG_COUNT → text = decimal bits.toNat) ∧
    (q.agg ≠ AGG_COUNT →
      NumberText printDouble bits (catalog.columnType q.valueCol) text)

section
variable {κ : Type} (printDouble : UInt64 → Bytes) (catalog : Catalog κ)

theorem numberText_decodeNum (col v : UInt64) :
    NumberText printDouble v (catalog.columnType col)
      (catalog.decodeNum printDouble col v) := by
  unfold Catalog.decodeNum
  cases catalog.columnType col with
  | U32 => exact .unsigned
  | I64 => exact .signed
  | F64 => exact .double

theorem stringDecode_of_lookup {col : UInt64} {dict : List Bytes}
    (stored : catalog.stringDicts.lookup col = some dict) (code : UInt32) :
    catalog.stringDecode col code = dict.getD code.toNat [] := by
  unfold Catalog.stringDecode
  rw [stored]

theorem stringDictSize_of_lookup {col : UInt64} {dict : List Bytes}
    (stored : catalog.stringDicts.lookup col = some dict)
    (filled : 0 < dict.length) (fits : dict.length < 2 ^ 32) :
    0 < catalog.stringDictSize col := by
  unfold Catalog.stringDictSize
  rw [stored, UInt32.lt_iff_toNat_lt]
  dsimp only
  rw [UInt32.toNat_ofNat_of_lt' fits]
  exact filled

theorem stringDictSize_of_none {col : UInt64}
    (unstored : catalog.stringDicts.lookup col = none) :
    ¬ 0 < catalog.stringDictSize col := by
  unfold Catalog.stringDictSize
  rw [unstored]
  decide

theorem typedText_decodeProj (col v : UInt64) :
    TypedText printDouble catalog col v
      (catalog.decodeProj printDouble col v) := by
  constructor
  · intro dict stored filled fits
    rw [Catalog.decodeProj,
      if_pos (stringDictSize_of_lookup catalog stored filled fits)]
    exact stringDecode_of_lookup catalog stored _
  · intro unstored
    rw [Catalog.decodeProj, if_neg (stringDictSize_of_none catalog unstored)]
    exact numberText_decodeNum printDouble catalog col v

/-- A label is printed like a value of a `uint32` column. -/
theorem typedText_groupLabel {col : UInt64}
    (u32 : catalog.columnType col = .U32) (v : UInt64) :
    TypedText printDouble catalog col v (catalog.groupLabel col v) := by
  have same : catalog.groupLabel col v =
      catalog.decodeProj printDouble col v := by
    rw [Catalog.groupLabel, Catalog.decodeProj, Catalog.decodeNum, u32]
  rw [same]
  exact typedText_decodeProj printDouble catalog col v

theorem aggregateShown_decodeAgg {q : MatrixQuery} {out : List UInt64}
    {g : Nat} {bits : UInt64} (serves : catalog.Serves q out)
    (found : out[g]? = some bits) :
    AggregateShown printDouble catalog q g
      (catalog.decodeAgg printDouble q bits) := by
  refine ⟨out, bits, serves, found, ?_, ?_⟩
  · intro counts
    exact if_pos counts
  · intro other
    rw [Catalog.decodeAgg, if_neg other]
    exact numberText_decodeNum printDouble catalog q.valueCol bits

end

/-! ## Rows of a join -/

/-- The text of an aggregate of a measure over some pairs of rows. -/
structure MeasureText (printDouble : UInt64 → Bytes) (measure : ColumnView)
    (agg : MatrixAggOp) (pairs : List (Nat × Nat)) (text : Bytes) : Prop where
  integer : measure.type ≠ .F64 → text = aggregateText measure.type agg
    (pairs.map fun pair => measure.integerAt pair.1)
  double : measure.type = .F64 → agg ≠ AGG_COUNT →
    ∃ bits, text = printDouble bits

/-- What an aggregate prints for all pairs, or for those of a group. -/
inductive JoinAggregateRow {κ : Type} (printDouble : UInt64 → Bytes)
    (catalog : Catalog κ) (j : JoinAggregate)
    (left right measure : ColumnView) : List Bytes → Prop where
  | whole {text : Bytes} (ungrouped : j.gcol = 0)
      (value : MeasureText printDouble measure j.agg (keyPairs left right)
        text) :
      JoinAggregateRow printDouble catalog j left right measure [text]
  | group {dimension : ColumnView} {g : UInt64} {label text : Bytes}
      (grouped : catalog.view j.gcol = some dimension)
      (occurs : ∃ pair ∈ keyPairs left right, dimension.word pair.2 = g)
      (key : dimension.type = .U32 →
        TypedText printDouble catalog j.gcol g label)
      (value : MeasureText printDouble measure j.agg
        ((keyPairs left right).filter fun pair =>
          dimension.word pair.2 = g) text) :
      JoinAggregateRow printDouble catalog j left right measure
        [label, text]

section
variable {κ : Type} {catalog : Catalog κ}

theorem measureText_reduceAgg (printDouble : UInt64 → Bytes) {col : UInt64}
    {measure : ColumnView} (typed : catalog.columnType col = measure.type)
    (agg : MatrixAggOp) (pairs : List (Nat × Nat)) :
    MeasureText printDouble measure agg pairs
      (catalog.reduceAgg printDouble col agg
        (pairs.map fun pair => measure.word pair.1)).text := by
  constructor
  · intro integer
    have reduced := reduceAgg_text printDouble typed integer agg
      (pairs.map Prod.fst)
    simpa only [List.map_map, Function.comp_def] using reduced
  · intro double other
    unfold Catalog.reduceAgg
    rw [if_neg other, typed, double]
    exact ⟨_, rfl⟩

/-- A gather that returns has read rows of its column. -/
theorem gather_side_ran (wellFormed : catalog.WellFormed) {id : UInt64}
    {column : ColumnView} (seen : catalog.view id = some column)
    {pairs : List (Nat × Nat)} {side : Nat × Nat → Nat}
    (fits : ∀ pair ∈ pairs, side pair < 2 ^ 64) {vals : List UInt64}
    {after : Catalog κ}
    (ran : catalog.gather id
      (pairs.map fun pair => UInt64.ofNat (side pair)) = some (vals, after)) :
    Keeps catalog after ∧
      vals = pairs.map fun pair => column.word (side pair) := by
  by_cases inside : ∀ pair ∈ pairs, side pair < column.rows
  · obtain ⟨after', keeps, _, same⟩ := gather_side wellFormed seen inside
    cases ran.symm.trans same
    exact ⟨keeps, rfl⟩
  · simp only [not_forall, Nat.not_lt] at inside
    obtain ⟨pair, member, beyond⟩ := inside
    have past : column.rows ≤ (UInt64.ofNat (side pair)).toNat := by
      rw [UInt64.toNat_ofNat_of_lt' (fits pair member)]
      exact beyond
    have failed := gather_none wellFormed seen
      (List.mem_map_of_mem (f := fun pair => UInt64.ofNat (side pair)) member)
      past
    cases ran.symm.trans failed

theorem mem_keep {A : Type} {post : JoinPost} {order : A → Float}
    {grows : List A} {r : A} (member : r ∈ JoinPost.keep post order grows) :
    r ∈ grows := by
  cases post with
  | plain => exact member
  | having hop hthr => exact List.mem_of_mem_filter member
  | topn n => exact List.mem_mergeSort.mp (List.mem_of_mem_take member)

section
variable (wellFormed : catalog.WellFormed) {lk rk : Bytes}
  {left right : ColumnView} (keys : JoinKeys catalog lk rk left right)

include wellFormed keys

theorem keyPairs_fit : ∀ pair ∈ keyPairs left right,
    pair.1 < 2 ^ 64 ∧ pair.2 < 2 ^ 64 := by
  intro pair member
  obtain ⟨inside, inside'⟩ := mem_keyPairs member
  have fits := rows_lt wellFormed keys.leftSeen
  have fits' := rows_lt wellFormed keys.rightSeen
  omega

theorem runJoinAggregate_rows {printDouble : UInt64 → Bytes}
    {j : JoinAggregate} {measure : ColumnView}
    (measured : catalog.view j.lcol = some measure)
    (grouped : j.gcol ≠ 0 → ∃ dimension, catalog.view j.gcol = some dimension)
    {lines : List CliLine} {after : Catalog κ}
    (ran : catalog.runJoinAggregate printDouble left.type
      (catalog.columnId lk) (catalog.columnId rk) j = some (lines, after))
    {fields : List Bytes} (shown : .row fields ∈ lines) :
    JoinAggregateRow printDouble catalog j left right measure fields := by
  obtain ⟨middle, keeps, _, joined⟩ := joinPairs_eq wellFormed keys
  have fits := keyPairs_fit wellFormed keys
  unfold runJoinAggregate at ran
  rw [joined] at ran
  simp only [Option.bind_eq_bind, Option.bind_some, List.map_map,
    Function.comp_def, rowNumbers] at ran
  obtain ⟨⟨lv, later⟩, gathered, ran⟩ := Option.bind_eq_some_iff.mp ran
  obtain ⟨keeps', rfl⟩ := gather_side_ran keeps.wellFormed
    ((keeps.view j.lcol).trans measured) (fun pair member =>
      (fits pair member).1) gathered
  dsimp only at ran
  split at ran
  · rename_i ungrouped
    have typed : later.columnType j.lcol = measure.type := by
      rw [(keeps.trans keeps').columnType]
      exact columnType_of_view measured
    cases ran
    cases List.mem_singleton.mp shown
    exact .whole ungrouped (measureText_reduceAgg printDouble typed j.agg _)
  · rename_i nonzero
    obtain ⟨dimension, seen⟩ := grouped nonzero
    obtain ⟨⟨gv, last⟩, gathered', ran⟩ := Option.bind_eq_some_iff.mp ran
    obtain ⟨keeps'', rfl⟩ := gather_side_ran (keeps.trans keeps').wellFormed
      (((keeps.trans keeps').view j.gcol).trans seen) (fun pair member =>
        (fits pair member).2) gathered'
    have whole := keeps.trans (keeps'.trans keeps'')
    obtain ⟨groups, _, occurs, buckets⟩ :=
      joinBuckets_eq (keyPairs left right)
        (fun pair => dimension.word pair.2) (fun pair => measure.word pair.1)
    have typed : last.columnType j.lcol = measure.type := by
      rw [whole.columnType]
      exact columnType_of_view measured
    dsimp only at ran
    rw [buckets] at ran
    cases ran
    obtain ⟨r, kept, same⟩ := List.mem_map.mp shown
    cases same
    obtain ⟨⟨g', vals⟩, bucket, rfl⟩ := List.mem_map.mp (mem_keep kept)
    obtain ⟨g, listed, same⟩ := List.mem_map.mp bucket
    obtain ⟨rfl, rfl⟩ := Prod.mk.inj same
    refine .group seen ((occurs g).mp listed) ?_
      (measureText_reduceAgg printDouble typed j.agg _)
    intro u32
    rw [whole.shown.groupLabel]
    apply typedText_groupLabel
    rw [columnType_of_view seen]
    exact u32

end

end

/-- The two sides of the first comma of a list. -/
def pairNames (select : Bytes) : Bytes × Bytes :=
  (cliTrim (select.takeWhile fun c => c != ','.toUInt8),
    cliTrim ((select.dropWhile fun c => c != ','.toUInt8).drop 1))

/-- A row that is printed for a join: a number of pairs, an aggregate, or a
pair of values of one pair of rows. -/
inductive JoinRow {κ : Type} (strtod : Bytes → StrtodResult)
    (printDouble : UInt64 → Bytes) (catalog : Catalog κ) (select : Bytes)
    (tail : List Bytes) (left right : ColumnView) : List Bytes → Prop where
  | count {n : Nat} (counts : countsPairs select = true) :
      JoinRow strtod printDouble catalog select tail left right [decimal n]
  | aggregate {j : JoinAggregate} {measure : ColumnView}
      {fields : List Bytes}
      (read : catalog.joinAggregate strtod select tail = .ok j)
      (measured : catalog.view j.lcol = some measure)
      (row : JoinAggregateRow printDouble catalog j left right measure
        fields) :
      JoinRow strtod printDouble catalog select tail left right fields
  | pair {l r : ColumnView} {pair : Nat × Nat} {text text' : Bytes}
      (lSeen : catalog.view (catalog.columnId (pairNames select).1) = some l)
      (rSeen : catalog.view (catalog.columnId (pairNames select).2) = some r)
      (joined : pair ∈ keyPairs left right)
      (value : TypedText printDouble catalog
        (catalog.columnId (pairNames select).1) (l.word pair.1) text)
      (value' : TypedText printDouble catalog
        (catalog.columnId (pairNames select).2) (r.word pair.2) text') :
      JoinRow strtod printDouble catalog select tail left right [text, text']

section
variable {catalog : Catalog κ} (wellFormed : catalog.WellFormed)
  (named : catalog.Named) {lk rk : Bytes} {left right : ColumnView}
  (keys : JoinKeys catalog lk rk left right)
  {strtod : Bytes → StrtodResult} {printDouble : UInt64 → Bytes}
  {mode : OutMode} {select : Bytes} {tail : List Bytes}
  {lines : List CliLine} {after : Catalog κ} {fields : List Bytes}

theorem row_not_moreNote {total shown : Nat} {what : String} :
    CliLine.row fields ∉ moreNote mode total what shown := by
  unfold moreNote
  split
  · simp
  · simp

omit wellFormed in
include wellFormed named in
/-- The columns of an aggregate that is read are there. -/
theorem joinAggregate_known {j : JoinAggregate}
    (read : catalog.joinAggregate strtod select tail = .ok j) :
    (∃ measure, catalog.view j.lcol = some measure) ∧
      (j.gcol ≠ 0 → ∃ dimension, catalog.view j.gcol = some dimension) := by
  unfold Catalog.joinAggregate at read
  dsimp only at read
  split at read
  · cases read
  split at read
  · cases read
  split at read
  · cases read
  rename_i known
  obtain ⟨⟨gcol, post⟩, grouped, same⟩ := bind_ok.mp read
  cases same
  refine ⟨view_of_known wellFormed named known, ?_⟩
  intro nonzero
  unfold Catalog.joinGroup at grouped
  split at grouped
  · cases grouped
    exact absurd rfl nonzero
  · split at grouped
    · cases grouped
    split at grouped
    · cases grouped
    rename_i known'
    obtain ⟨dimension, seen⟩ := view_of_known wellFormed named known'
    cases more : Catalog.joinPost strtod _ with
    | error message =>
        rw [more] at grouped
        cases grouped
    | ok post' =>
        rw [more] at grouped
        cases grouped
        exact ⟨dimension, seen⟩
  · cases grouped

include wellFormed keys

theorem runJoinProjection_rows (named : catalog.Named)
    (ran : catalog.runJoinProjection printDouble mode left.type
      (catalog.columnId lk) (catalog.columnId rk) select tail =
        some (lines, after)) (shown : .row fields ∈ lines) :
    JoinRow strtod printDouble catalog select tail left right fields := by
  have fits := keyPairs_fit wellFormed keys
  obtain ⟨joined, keeps, _, pairs⟩ := joinPairs_eq wellFormed keys
  unfold Catalog.runJoinProjection at ran
  split at ran
  · cases ran
    cases List.mem_singleton.mp shown
  split at ran
  · cases ran
    cases List.mem_singleton.mp shown
  dsimp only at ran
  split at ran
  · cases ran
    cases List.mem_singleton.mp shown
  rename_i limit _ _ known
  rw [not_or] at known
  obtain ⟨l, lSeen⟩ := view_of_known wellFormed named known.1
  obtain ⟨r, rSeen⟩ := view_of_known wellFormed named known.2
  rw [pairs] at ran
  generalize (if limit = 0 then 100 else limit.toNat) = cap at ran
  have fits' : ∀ pair ∈ (keyPairs left right).take cap,
      pair.1 < 2 ^ 64 ∧ pair.2 < 2 ^ 64 :=
    fun pair member => fits pair (List.mem_of_mem_take member)
  simp only [Option.bind_eq_bind, Option.bind_some, ← List.map_take,
    List.map_map, Function.comp_def, rowNumbers] at ran
  obtain ⟨⟨lv, later⟩, gathered, ran⟩ := Option.bind_eq_some_iff.mp ran
  obtain ⟨keeps', rfl⟩ := gather_side_ran keeps.wellFormed
    ((keeps.view _).trans lSeen) (fun pair member => (fits' pair member).1)
    gathered
  obtain ⟨⟨rv, last⟩, gathered', ran⟩ := Option.bind_eq_some_iff.mp ran
  obtain ⟨keeps'', rfl⟩ := gather_side_ran (keeps.trans keeps').wellFormed
    (((keeps.trans keeps').view _).trans rSeen)
    (fun pair member => (fits' pair member).2) gathered'
  have whole := keeps.trans (keeps'.trans keeps'')
  have decode : last.decodeProj printDouble =
      catalog.decodeProj printDouble :=
    funext fun col => funext (whole.shown.decodeProj printDouble col)
  dsimp only at ran
  rw [List.zipWith_map, List.zipWith_self, decode] at ran
  cases ran
  rcases List.mem_append.mp shown with row | note
  · obtain ⟨pair, member, same⟩ := List.mem_map.mp row
    cases same
    exact .pair lSeen rSeen (List.mem_of_mem_take member)
      (typedText_decodeProj printDouble catalog _ _)
      (typedText_decodeProj printDouble catalog _ _)
  · exact absurd note row_not_moreNote

theorem joinBranch_rows (named : catalog.Named)
    (ran : catalog.joinBranch printDouble strtod mode left.type
      (catalog.columnId lk) (catalog.columnId rk) select tail =
        some (lines, after)) (shown : .row fields ∈ lines) :
    JoinRow strtod printDouble catalog select tail left right fields := by
  unfold Catalog.joinBranch at ran
  split at ran
  · rename_i counts
    obtain ⟨⟨count, last⟩, _, same⟩ := Option.map_eq_some_iff.mp ran
    cases same
    cases List.mem_singleton.mp shown
    exact .count counts
  split at ran
  · split at ran
    · cases ran
      cases List.mem_singleton.mp shown
    · rename_i j read
      obtain ⟨⟨measure, measured⟩, grouped⟩ :=
        joinAggregate_known wellFormed named read
      exact .aggregate read measured (runJoinAggregate_rows wellFormed keys
        measured grouped ran shown)
  · exact runJoinProjection_rows wellFormed keys named ran shown

end

section
variable {catalog : Catalog κ} (wellFormed : catalog.WellFormed)
  (named : catalog.Named) {strtod : Bytes → StrtodResult}
  {printDouble : UInt64 → Bytes} {mode : OutMode} {line : Bytes}
  {lines : List CliLine} {after : Catalog κ} {fields : List Bytes}

include wellFormed named in
/-- The guards of a join let through keys that can be joined. -/
theorem joinKeys_of_guards {lk rk : Bytes}
    (known : ¬ (catalog.columnId lk = 0 ∨ catalog.columnId rk = 0))
    (plain : ¬ (0 < catalog.stringDictSize (catalog.columnId lk) ∨
      0 < catalog.stringDictSize (catalog.columnId rk)))
    (typed : ¬ (catalog.columnType (catalog.columnId lk) ≠
        catalog.columnType (catalog.columnId rk) ∨
      catalog.columnType (catalog.columnId lk) = .F64)) :
    ∃ left right, JoinKeys catalog lk rk left right ∧
      catalog.columnType (catalog.columnId lk) = left.type := by
  rw [not_or] at known plain typed
  rw [not_not] at typed
  obtain ⟨left, leftSeen⟩ := view_of_known wellFormed named known.1
  obtain ⟨right, rightSeen⟩ := view_of_known wellFormed named known.2
  have leftTyped := columnType_of_view leftSeen
  have rightTyped := columnType_of_view rightSeen
  have zero : ∀ {n : UInt32}, ¬ 0 < n → n = 0 := by
    intro n empty
    exact UInt32.le_zero_iff.mp (UInt32.not_lt.mp empty)
  exact ⟨left, right, ⟨leftSeen, rightSeen, zero plain.1, zero plain.2,
    (rightTyped.symm.trans typed.1.symm).trans leftTyped,
    fun f64 => typed.2 (leftTyped.trans f64)⟩, leftTyped⟩

include wellFormed named in
/-- A row that is printed for a join is one of keys that can be joined. -/
theorem runJoin_rows
    (ran : catalog.runJoin printDouble strtod mode line =
      some (lines, after)) (shown : .row fields ∈ lines) :
    ∃ join left right, joinLine (splitWs line) = some join ∧
      JoinKeys catalog join.lk join.rk left right ∧
      JoinRow strtod printDouble catalog join.select join.tail left right
        fields := by
  have refused : ∀ {message : Bytes}, CliLine.row fields ∉
      [CliLine.error message] := by
    intro message member
    cases List.mem_singleton.mp member
  unfold Catalog.runJoin at ran
  split at ran
  · cases ran
    exact absurd shown refused
  rename_i select lk rk tail read
  dsimp only at ran
  split at ran
  · cases ran
    exact absurd shown refused
  rename_i known
  split at ran
  · cases ran
    exact absurd shown refused
  rename_i plain
  split at ran
  · cases ran
    exact absurd shown refused
  rename_i typed
  obtain ⟨left, right, keys, leftTyped⟩ :=
    joinKeys_of_guards wellFormed named known plain typed
  rw [leftTyped] at ran
  exact ⟨_, left, right, read, keys,
    joinBranch_rows wellFormed keys named ran shown⟩

end

/-! ## Printed rows -/

/-- A row that is printed for a line, in each of the forms that a line can
have. -/
inductive PrintedRow {κ : Type} [CostArith κ] (strtod : Bytes → StrtodResult)
    (printDouble : UInt64 → Bytes) (catalog : Catalog κ) (line : Bytes) :
    List Bytes → Prop where
  | scalar {q : MatrixQuery} {parsed : Catalog κ} {text : Bytes}
      (route : routeOf line = .single)
      (parses : catalog.parseQuery strtod line = some (.OK, q, parsed))
      (plain : q.grouped = false)
      (value : AggregateShown printDouble catalog q 0 text) :
      PrintedRow strtod printDouble catalog line [text]
  | group {q : MatrixQuery} {parsed : Catalog κ} {g : Nat}
      {label text : Bytes} (route : routeOf line = .single)
      (parses : catalog.parseQuery strtod line = some (.OK, q, parsed))
      (grouped : q.grouped = true)
      (key : TypedText printDouble catalog q.keyCol (UInt64.ofNat g) label)
      (value : AggregateShown printDouble catalog q g text) :
      PrintedRow strtod printDouble catalog line [label, text]
  | having {cut : Nat} {before q : MatrixQuery} {first parsed : Catalog κ}
      {g : Nat} {label text : Bytes} (route : routeOf line = .having cut)
      (cuts : catalog.parseQuery strtod (line.take cut) =
        some (.OK, before, first))
      (parses : catalog.parseQuery strtod (havingHead line) =
        some (.OK, q, parsed))
      (grouped : q.grouped = true)
      (key : before.keyCol = q.keyCol →
        TypedText printDouble catalog q.keyCol (UInt64.ofNat g) label)
      (value : AggregateShown printDouble catalog q g text) :
      PrintedRow strtod printDouble catalog line [label, text]
  | names {fields : List Bytes} (route : routeOf line = .multi)
      (terms : fields = lineTerms (cutLine line).1 ∨
        fields = ascii "key" :: lineTerms (cutLine line).1) :
      PrintedRow strtod printDouble catalog line fields
  | terms {values : List Bytes} (route : routeOf line = .multi)
      (shown : ∀ c text, values[c]? = some text →
        ∃ q, TermQuery strtod catalog line c q ∧
          AggregateShown printDouble catalog q 0 text) :
      PrintedRow strtod printDouble catalog line values
  | groupTerms {first : MatrixQuery} {g : Nat} {label : Bytes}
      {values : List Bytes} (route : routeOf line = .multi)
      (heads : TermQuery strtod catalog line 0 first)
      (grouped : first.grouped = true)
      (key : TypedText printDouble catalog first.keyCol (UInt64.ofNat g)
        label)
      (shown : ∀ c text, values[c]? = some text →
        ∃ q, TermQuery strtod catalog line c q ∧
          AggregateShown printDouble catalog q g text) :
      PrintedRow strtod printDouble catalog line (label :: values)
  | average {value : Float} (route : routeOf line = .average) :
      PrintedRow strtod printDouble catalog line [printDouble value.toBits]
  | groupAverage {g : Nat} {value : Float} (route : routeOf line = .average) :
      PrintedRow strtod printDouble catalog line
        [decimal g, printDouble value.toBits]
  | distinct {n : Nat} (route : routeOf line = .distinct) :
      PrintedRow strtod printDouble catalog line [decimal n]
  | projected {word name shown : Bytes} {rest : List Bytes}
      {column : ColumnView} {row : Nat} {text : Bytes}
      (route : routeOf line = .projection)
      (second : (splitWs line)[1]? = some shown)
      (tokens : matrixparseTokenize line = word :: name :: rest)
      (seen : catalog.view (catalog.columnId name) = some column)
      (inside : row < column.rows)
      (value : catalog.columnId shown = catalog.columnId name →
        TypedText printDouble catalog (catalog.columnId name)
          (column.word row) text) :
      PrintedRow strtod printDouble catalog line [text]
  | joined {join : JoinLine} {left right : ColumnView} {fields : List Bytes}
      (route : routeOf line = .join)
      (read : joinLine (splitWs line) = some join)
      (keys : JoinKeys catalog join.lk join.rk left right)
      (row : JoinRow strtod printDouble catalog join.select join.tail left
        right fields) :
      PrintedRow strtod printDouble catalog line fields

section
variable {κ : Type} [SoundCost κ] {strtod : Bytes → StrtodResult}
  {printDouble : UInt64 → Bytes} {catalog : Catalog κ} {line : Bytes}
  {ns : Nat → UInt64} {lines : List CliLine} {after : Catalog κ}
  {fields : List Bytes}

omit [SoundCost κ] in
theorem Shows.aggregate {first q : MatrixQuery} {g : Nat}
    {label : Option Bytes} {text : Bytes}
    (shows' : Shows printDouble catalog first q g label text) :
    AggregateShown printDouble catalog q g text := by
  obtain ⟨out, bits, serves, found, rfl⟩ := shows'.answer
  exact aggregateShown_decodeAgg printDouble catalog serves found

omit [SoundCost κ] in
theorem Shows.key {first q : MatrixQuery} {g : Nat} {label text : Bytes}
    (shows' : Shows printDouble catalog first q g (some label) text)
    (u32 : catalog.columnType first.keyCol = .U32) :
    TypedText printDouble catalog first.keyCol (UInt64.ofNat g) label := by
  rw [shows'.label label rfl]
  exact typedText_groupLabel printDouble catalog u32 _

variable (settled : catalog.Settled)

include settled

theorem runSingle_rows (route : routeOf line = .single)
    (ran : catalog.runSingle strtod printDouble ns line =
      some (lines, after)) (shown : .row fields ∈ lines) :
    PrintedRow strtod printDouble catalog line fields := by
  obtain ⟨⟨status, q, parsed⟩, parses, rest⟩ := Option.bind_eq_some_iff.mp ran
  by_cases ok : status = .OK
  · subst ok
    rcases runSingle_cases settled parses ran with
      ⟨message, rfl⟩ | ⟨out, last, _, serves, rfl⟩
    · cases List.mem_singleton.mp shown
    have pair : ∀ pair ∈ numbered out,
        fields = [catalog.groupLabel q.keyCol pair.1,
          catalog.decodeAgg printDouble q pair.2] →
        q.grouped = true →
        PrintedRow strtod printDouble catalog line fields := by
      intro pair member same grouped
      have row : Shows printDouble catalog q q pair.1.toNat
          (some (catalog.groupLabel q.keyCol pair.1))
          (catalog.decodeAgg printDouble q pair.2) :=
        shows_pair serves member rfl rfl
      have u32 := Catalog.Serves.keyed serves grouped
      rw [same]
      exact .group route parses grouped (row.key u32) row.aggregate
    unfold resultRows at shown
    split at shown
    · rename_i grouped
      obtain ⟨best, member, same⟩ := List.mem_map.mp shown
      cases same
      exact pair best ((topOf_partialSort _ _).mem _ member) rfl grouped.1
    split at shown
    · rename_i grouped
      obtain ⟨one, member, same⟩ := List.mem_map.mp shown
      cases same
      exact pair one member rfl grouped
    · rename_i scalar
      have plain := Bool.eq_false_iff.mpr scalar
      cases List.mem_singleton.mp shown
      obtain ⟨value, seen, answered⟩ := serves
      obtain ⟨bits, others, result⟩ :=
        List.exists_cons_of_ne_nil (answered_present answered)
      have text : (out.head?.map (catalog.decodeAgg printDouble q)).getD [] =
          catalog.decodeAgg printDouble q bits := by
        rw [result]
        rfl
      rw [text]
      exact .scalar route parses plain (aggregateShown_decodeAgg printDouble
        catalog ⟨value, seen, answered⟩ (by rw [result]; rfl))
  · dsimp only at rest
    rw [if_neg ok] at rest
    cases rest
    cases List.mem_singleton.mp shown

/-- A kept group has been parsed from the clauses before its `HAVING`. -/
theorem havingQuery_parsed {n : UInt64} {pairs : List (UInt64 × UInt64)}
    {pair : UInt64 × UInt64}
    (kept : catalog.havingQuery strtod n line = some (pairs, after))
    (member : pair ∈ pairs) :
    ∃ q parsed, catalog.parseQuery strtod (havingHead line) =
        some (.OK, q, parsed) ∧ q.grouped = true ∧
      ∃ out, catalog.Serves q out ∧ pair ∈ numbered out := by
  have parsedOk : ∃ q parsed, catalog.parseQuery strtod (havingHead line) =
      some (.OK, q, parsed) := by
    unfold Catalog.havingQuery at kept
    dsimp only at kept
    split at kept
    · obtain ⟨⟨status, q, parsed⟩, parses, rest⟩ :=
        Option.bind_eq_some_iff.mp kept
      dsimp only at rest
      split at rest
      · rename_i conditions
        obtain ⟨rfl, _⟩ := conditions
        exact ⟨q, parsed, parses⟩
      · cases rest
        cases member
    · cases kept
      cases member
  obtain ⟨q, parsed, parses⟩ := parsedOk
  refine ⟨q, parsed, parses, ?_⟩
  rcases havingQuery_pairs settled parses kept with
    rfl | ⟨grouped, out, serves, among⟩
  · cases member
  · exact ⟨grouped, out, serves, among pair member⟩

theorem runHaving_rows {cut : Nat} (route : routeOf line = .having cut)
    (ran : catalog.runHaving strtod printDouble ns line cut =
      some (lines, after)) (shown : .row fields ∈ lines) :
    PrintedRow strtod printDouble catalog line fields := by
  obtain ⟨⟨status, before, first⟩, cuts, rest⟩ :=
    Option.bind_eq_some_iff.mp ran
  dsimp only at rest
  split at rest
  · rename_i ok
    subst ok
    obtain ⟨⟨pairs, last⟩, kept, rest⟩ := Option.bind_eq_some_iff.mp rest
    cases rest
    obtain ⟨pair, member, same⟩ := List.mem_map.mp shown
    cases same
    have keptFirst := settled.kept.further
      (keeps_parseQuery settled.wellFormed cuts)
      ((settled.kept.parseQuery strtod _).ensures _ _ cuts).2.left
    obtain ⟨last', kept', keptLast⟩ :=
      (keptFirst.havingQuery strtod (ns 0) (ns 0) line).leads kept
    obtain ⟨q, parsed, parses, grouped, out, serves, among⟩ :=
      havingQuery_parsed settled kept' member
    have row : last.groupRow printDouble before =
        catalog.groupRow printDouble before :=
      funext (keptLast.shown.groupRow printDouble before)
    have printed := congrFun row pair
    simp only [Catalog.groupRow, CliLine.row.injEq, List.cons.injEq,
      and_true] at printed
    rw [printed.1, printed.2]
    have cell : Shows printDouble catalog before q pair.1.toNat
        (some (catalog.groupLabel before.keyCol pair.1))
        (catalog.decodeAgg printDouble before pair.2) :=
      shows_before settled parses cuts serves among
    refine .having route cuts parses grouped ?_ cell.aggregate
    intro sameKey
    rw [← sameKey]
    apply cell.key
    rw [sameKey]
    exact Catalog.Serves.keyed serves grouped
  · cases rest
    cases List.mem_singleton.mp shown

theorem runMulti_rows (route : routeOf line = .multi)
    (ran : catalog.runMulti strtod printDouble ns line =
      some (lines, after)) (shown : .row fields ∈ lines) :
    PrintedRow strtod printDouble catalog line fields := by
  rcases runMulti_cases settled ran with ⟨message, rfl⟩ |
    ⟨head, others, columns, ⟨plain, rfl⟩ | ⟨grouped, rows, made, rfl⟩⟩
  · cases List.mem_singleton.mp shown
  · rcases List.mem_cons.mp shown with same | later
    · cases same
      exact .names route (.inl columns.labels)
    · cases List.mem_singleton.mp later
      apply PrintedRow.terms route
      intro c text value
      rw [List.getElem?_map] at value
      obtain ⟨column, listed, rfl⟩ := Option.map_eq_some_iff.mp value
      have serves := columns.serves c column listed
      obtain ⟨_, _, answered⟩ := columns.serves c column listed
      obtain ⟨bits, rest, result⟩ :=
        List.exists_cons_of_ne_nil (answered_present answered)
      rw [result, List.headD_cons]
      exact ⟨column.query, columns.terms c column listed,
        aggregateShown_decodeAgg printDouble catalog serves (by rw [result]; rfl)⟩
  · rcases List.mem_cons.mp shown with same | later
    · cases same
      rw [columns.labels]
      exact .names route (.inr rfl)
    · obtain ⟨i, listed⟩ := List.getElem?_of_mem later
      obtain ⟨g, _, row⟩ := getElem?_of_mapM made listed
      obtain ⟨texts, cells, same⟩ := Option.map_eq_some_iff.mp row
      cases same
      have u32 := Catalog.Serves.keyed (columns.serves 0 head rfl) grouped
      refine .groupTerms route (columns.terms 0 head rfl) grouped
        (typedText_groupLabel printDouble catalog u32 _) ?_
      intro c text value
      obtain ⟨column, listed, shown⟩ := getElem?_of_mapM cells value
      obtain ⟨bits, found, rfl⟩ := Option.map_eq_some_iff.mp shown
      exact ⟨column.query, columns.terms c column listed,
        aggregateShown_decodeAgg printDouble catalog
          (columns.serves c column listed) found⟩

omit settled in
theorem runAverage_rows (route : routeOf line = .average)
    (ran : catalog.runAverage strtod printDouble ns line =
      some (lines, after)) (shown : .row fields ∈ lines) :
    PrintedRow strtod printDouble catalog line fields := by
  obtain ⟨⟨averages, last⟩, _, rest⟩ := Option.bind_eq_some_iff.mp ran
  dsimp only at rest
  split at rest
  · cases rest
    cases List.mem_singleton.mp shown
  · cases rest
    cases List.mem_singleton.mp shown
    exact .average route
  · cases rest
    obtain ⟨⟨value, g⟩, _, same⟩ := List.mem_map.mp shown
    cases same
    exact .groupAverage route

omit settled in
theorem runDistinct_rows (route : routeOf line = .distinct)
    (ran : catalog.runDistinct line = some (lines, after))
    (shown : .row fields ∈ lines) :
    PrintedRow strtod printDouble catalog line fields := by
  obtain ⟨⟨n, last⟩, _, rest⟩ := Option.bind_eq_some_iff.mp ran
  dsimp only at rest
  split at rest
  · cases rest
    cases List.mem_singleton.mp shown
    exact .distinct route
  · cases rest
    cases List.mem_singleton.mp shown

/-- A projected value stands in some row of its column. -/
theorem runProjection_rows {mode : OutMode} (named : catalog.Named)
    (route : routeOf line = .projection)
    (ran : catalog.runProjection strtod printDouble mode line =
      some (lines, after)) (shown : .row fields ∈ lines) :
    PrintedRow strtod printDouble catalog line fields := by
  unfold Catalog.runProjection at ran
  have refused : ∀ {message : Bytes},
      failure message catalog = some (lines, after) → False := by
    intro message same
    cases same
    cases List.mem_singleton.mp shown
  rcases cut : splitWs line with _ | ⟨first, _ | ⟨name, words⟩⟩
  · rw [cut] at ran
    exact (refused ran).elim
  · rw [cut] at ran
    exact (refused ran).elim
  rw [cut] at ran
  dsimp only at ran
  split at ran
  · exact (refused ran).elim
  obtain ⟨⟨out, last⟩, projects, rest⟩ := Option.bind_eq_some_iff.mp ran
  cases rest
  rcases List.mem_append.mp shown with row | note
  swap
  · exact absurd note row_not_moreNote
  obtain ⟨v, member, same⟩ := List.mem_map.mp row
  cases same
  have wellFormed := settled.wellFormed
  obtain ⟨out', last', projects', _, filled⟩ :=
    projectQuery_sound wellFormed named line
  cases projects.symm.trans projects'
  have present := List.mem_of_mem_take member
  obtain ⟨column, filter, limit, projection⟩ :=
    filled (List.ne_nil_of_mem present)
  obtain ⟨last'', complete⟩ :=
    projectQuery_complete wellFormed named projection
  cases projects.symm.trans complete
  obtain ⟨n, taken, rfl⟩ := List.mem_map.mp (mem_of_limited present)
  have inside := List.mem_range.mp (List.mem_of_mem_filter taken)
  have data := ((settled.kept.projectQuery strtod line).ensures _ _
    projects).data
  generalize tokenized : matrixparseTokenize line = tokens at projection
  cases projection with
  | select _ seen =>
      refine .projected route (by rw [cut]; rfl) tokenized seen inside ?_
      intro same
      rw [data.shown.decodeProj, same]
      exact typedText_decodeProj printDouble catalog _ _

/-- Every row that a line prints is of one of the forms. -/
theorem runSql_rows {mode : OutMode} (named : catalog.Named)
    (ran : catalog.runSql strtod printDouble ns mode line =
      some (lines, after)) (shown : .row fields ∈ lines) :
    PrintedRow strtod printDouble catalog line fields := by
  unfold Catalog.runSql at ran
  split at ran
  · rename_i route
    obtain ⟨join, left, right, read, keys, row⟩ :=
      runJoin_rows settled.wellFormed named ran shown
    exact .joined route read keys row
  · rename_i route
    exact runDistinct_rows route ran shown
  · rename_i route
    exact runHaving_rows settled route ran shown
  · rename_i route
    exact runAverage_rows route ran shown
  · rename_i route
    exact runMulti_rows settled route ran shown
  · rename_i route
    exact runSingle_rows settled route ran shown
  · rename_i route
    exact runProjection_rows settled named route ran shown

end

/-- Every printed row is of one of the forms, with its labels and values decoded
by the types of their columns. -/
theorem printed_rows_typed {κ : Type} [SoundCost κ]
    {strtod : Bytes → StrtodResult} {engine : Analytics κ}
    (live : Analytics.Live strtod engine) {printDouble : UInt64 → Bytes}
    {ns : Nat → UInt64} {mode : OutMode} {line : Bytes}
    {lines : List CliLine} {after : Catalog κ}
    (ran : engine.catalog.runSql strtod printDouble ns mode line =
      some (lines, after)) {fields : List Bytes}
    (shown : .row fields ∈ lines) :
    PrintedRow strtod printDouble engine.catalog line fields :=
  runSql_rows live.settled live.named ran shown

/-! ## The board again -/

theorem live_board {catalog : Catalog ℚ} (made : board = some catalog) :
    ∃ engine : Analytics ℚ, Analytics.Live Analytics.noNumber engine ∧
      engine.catalog = catalog := by
  obtain ⟨first, loaded, named⟩ := Option.bind_eq_some_iff.mp made
  have load : (CatalogCall.loadStringColumnDict 1 [ascii "b", ascii "m"]).run
      Analytics.noNumber (fun _ => 0) (Analytics.fresh 1024) =
        some (.done,
          { (Analytics.fresh 1024 : Analytics ℚ) with catalog := first }) := by
    unfold CatalogCall.run
    simp only [Analytics.thenCatalog, Analytics.withCatalog]
    rw [show (Analytics.fresh 1024 : Analytics ℚ).catalog = .fresh 1024
      from rfl, loaded]
    rfl
  have name : (CatalogCall.nameColumn 1 (ascii "s")).run Analytics.noNumber
      (fun _ => 0)
        { (Analytics.fresh 1024 : Analytics ℚ) with catalog := first } =
        some (.done,
          { (Analytics.fresh 1024 : Analytics ℚ) with catalog }) := by
    unfold CatalogCall.run
    simp only [Analytics.thenCatalog, Analytics.withCatalog]
    rw [named]
    rfl
  exact ⟨_, .call (.call (.fresh 1024) load) name, rfl⟩

theorem printed_rows_typed_board :
    ∃ engine : Analytics ℚ,
      engine.catalog.stringDicts.lookup 1 = some [ascii "b", ascii "m"] ∧
      PrintedRow Analytics.noNumber (fun _ => []) engine.catalog
        (ascii "SELECT s") [ascii "b"] := by
  have printed : (board.bind fun catalog =>
      (catalog.runSql Analytics.noNumber (fun _ => []) (fun _ => 0) .LIST
        (ascii "SELECT s")).map fun ran =>
          (catalog.stringDicts.lookup 1, ran.1)) =
      some (some [ascii "b", ascii "m"],
        [.row [ascii "b"], .row [ascii "m"]]) := by
    rw [board_eq]
    decide +kernel
  obtain ⟨catalog, made, printed⟩ := Option.bind_eq_some_iff.mp printed
  obtain ⟨⟨lines, after⟩, ran, same⟩ := Option.map_eq_some_iff.mp printed
  obtain ⟨dict, rfl⟩ := Prod.mk.inj same
  obtain ⟨engine, live, rfl⟩ := live_board made
  exact ⟨engine, dict, printed_rows_typed live ran List.mem_cons_self⟩

/-- The least string of a column is printed as its code. -/
theorem code_printed :
    ∃ (engine : Analytics ℚ) (q : MatrixQuery) (parsed after : Catalog ℚ),
      Analytics.Live Analytics.noNumber engine ∧
      engine.catalog.parseQuery Analytics.noNumber (ascii "SELECT MIN(s)") =
        some (.OK, q, parsed) ∧
      q.agg = AGG_MIN ∧ engine.catalog.Serves q [0] ∧
      engine.catalog.runSql Analytics.noNumber (fun _ => []) (fun _ => 0)
          .LIST (ascii "SELECT MIN(s)") =
        some ([.row [decimal 0]], after) ∧
      ¬ TypedText (fun _ => []) engine.catalog q.valueCol 0 (decimal 0) := by
  have answered : (board.bind fun catalog =>
      (catalog.parseQuery Analytics.noNumber (ascii "SELECT MIN(s)")).bind
        fun parsed => (parsed.2.2.executeQuery 0 parsed.2.1).map fun result =>
          (parsed.1, parsed.2.1, result.1, result.2.1)) =
      some (.OK, { valueCol := 1, agg := AGG_MIN }, .OK, [0]) := by
    rw [board_eq]
    decide +kernel
  have printed : (board.bind fun catalog =>
      (catalog.runSql Analytics.noNumber (fun _ => []) (fun _ => 0) .LIST
        (ascii "SELECT MIN(s)")).map fun ran => ran.1) =
      some [.row [decimal 0]] := by
    rw [board_eq]
    decide +kernel
  obtain ⟨catalog, made, _, dict, _⟩ := exists_board
  rw [made, Option.bind_some] at answered printed
  obtain ⟨⟨status, q, parsed⟩, parses, answered⟩ :=
    Option.bind_eq_some_iff.mp answered
  obtain ⟨⟨status', out, last⟩, answers, same⟩ :=
    Option.map_eq_some_iff.mp answered
  cases same
  obtain ⟨⟨lines, after⟩, ran, rfl⟩ := Option.map_eq_some_iff.mp printed
  obtain ⟨engine, live, rfl⟩ := live_board made
  have keeps := keeps_parseQuery live.settled.wellFormed parses
  refine ⟨engine, _, parsed, after, live, parses, rfl,
    serves_of_answer keeps answers, ran, ?_⟩
  intro typed
  have string := typed.string _ dict (by decide) (by decide)
  revert string
  decide

end MatrixDB
