import MatrixDB.Cli.JoinAggregates

/-!
# Explicit limits in the shell

Zero stands for no limit inside the engine, and a projection of one column is
cut at a hundred rows whatever its limit is.
-/

namespace MatrixDB

open Lib CostArith Catalog

/-! ## Rows of data -/

/-- The printed rows, without errors and notes. -/
def dataRows (lines : List CliLine) : List (List Bytes) :=
  lines.filterMap fun line =>
    match line with
    | .row fields => some fields
    | _ => none

theorem dataRows_rows {A : Type} (show' : A → List Bytes) (rows : List A)
    (mode : OutMode) (total : Nat) (what : String) (shown : Nat) :
    dataRows (rows.map (fun r => CliLine.row (show' r)) ++
      moreNote mode total what shown) = rows.map show' := by
  have note : dataRows (moreNote mode total what shown) = [] := by
    unfold moreNote
    split <;> rfl
  unfold dataRows at note ⊢
  rw [List.filterMap_append, note, List.append_nil, List.filterMap_map]
  exact congrFun List.filterMap_eq_map' rows

/-- Two fronts of a list are shown alike when they are as long. -/
theorem map_take_eq_iff {A B : Type} (f : A → B) (rows : List A) (a b : Nat) :
    (rows.take a).map f = (rows.take b).map f ↔
      min a rows.length = min b rows.length := by
  constructor
  · intro same
    have lengths := congrArg List.length same
    simpa only [List.length_map, List.length_take] using lengths
  · intro same
    rw [List.take_eq_take_iff.mpr same]

theorem Numeral.fromChars {text : Bytes} {n : Nat} (numeral : Numeral text n) :
    fromCharsU64 text =
      if n < 2 ^ 64 then some (UInt64.ofNat n) else none := by
  unfold fromCharsU64 fromCharsUnsigned
  rw [numeral.value]
  split
  · rename_i all
    rw [if_pos all.2.2]
    rfl
  · rename_i failed
    have large : ¬ n < 2 ^ 64 := by
      intro small
      exact failed ⟨numeral.present, numeral.digits, small⟩
    rw [if_neg large]
    rfl

/-- Nothing but the value of a number is read, up to the largest one. -/
theorem Numeral.strtoull {text : Bytes} {n : Nat} (numeral : Numeral text n) :
    (strtoull text).toNat = min n (2 ^ 64 - 1) := by
  have digits := List.all_eq_true.mp numeral.digits
  obtain ⟨c, rest, rfl⟩ := List.exists_cons_of_ne_nil numeral.present
  have first := digits c List.mem_cons_self
  have plain : ∀ c : UInt8, isDigit c = true →
      isSpace c = false ∧ c ≠ '-'.toUInt8 ∧ c ≠ '+'.toUInt8 := by
    decide +kernel
  obtain ⟨visible, unsigned⟩ := plain c first
  have body : (c :: rest).dropWhile isSpace = c :: rest := by
    rw [List.dropWhile_cons_of_neg]
    simp [visible]
  have whole : (c :: rest).takeWhile isDigit = c :: rest :=
    List.takeWhile_eq_self_iff.mpr digits
  unfold MatrixDB.strtoull
  dsimp only
  rw [body]
  simp only [List.head?_cons, Option.some.injEq, unsigned.1, unsigned.2,
    or_self, if_false, whole, numeral.value]
  split
  · rename_i large
    simp only [UInt64.reduceToNat]
    omega
  · rename_i small
    rw [UInt64.toNat_ofNat_of_lt' (by simp only [UInt64.size]; omega)]
    omega

variable {κ : Type}

/-! ## A projection of one column -/

/-- `SELECT name [WHERE ...] LIMIT n`, where the first blanks enclose `shown`,
which says how the values are decoded. -/
structure ColumnLine (strtod : Bytes → StrtodResult) (catalog : Catalog κ)
    (line shown : Bytes) (column : ColumnView)
    (filter : Option (ColumnView × MatrixPredicate)) (n : Nat) : Prop where
  route : routeOf line = .projection
  second : (splitWs line)[1]? = some shown
  known : catalog.columnId shown ≠ 0
  tokens : ∃ word name region limit decimal,
    matrixparseTokenize line = word :: name :: (region ++ [limit, decimal]) ∧
      Spells word "SELECT" ∧
      catalog.view (catalog.columnId name) = some column ∧
      (∀ token ∈ region, ¬ Spells token "LIMIT") ∧
      FilterClause strtod catalog column region filter ∧
      Spells limit "LIMIT" ∧ Numeral decimal n

/-- How many rows of a column are printed. -/
def columnCap (n : Nat) : Nat :=
  if n = 0 then 100 else if n < 2 ^ 64 then min 100 n else 0

theorem splitLimit_none {region : List Bytes} {word decimal : Bytes}
    (unlimited : ∀ token ∈ region, ¬ Spells token "LIMIT")
    (spelled : Spells word "LIMIT") (unread : fromCharsU64 decimal = none) :
    splitLimit (region ++ [word, decimal]) = none := by
  have skipped : ∀ token ∈ region, (!(up token == ascii "LIMIT")) = true := by
    intro token member
    simpa [Spells] using unlimited token member
  have stops : (!(up word == ascii "LIMIT")) = false := by
    simpa [Spells] using spelled
  unfold splitLimit
  dsimp only
  rw [List.takeWhile_append_of_pos skipped,
    List.dropWhile_append_of_pos skipped]
  simp [stops, unread]

section
variable [SoundCost κ] {strtod : Bytes → StrtodResult} {engine : Analytics κ}
  (live : Analytics.Live strtod engine)

include live

theorem projectQuery_capped {line shown : Bytes} {column : ColumnView}
    {filter : Option (ColumnView × MatrixPredicate)} {n : Nat}
    (form : ColumnLine strtod engine.catalog line shown column filter n) :
    ∃ out after, engine.catalog.projectQuery strtod line = some (out, after) ∧
      Untouched engine.catalog after ∧
      out.take 100 = (column.selected filter).take (columnCap n) := by
  have wellFormed := live.settled.wellFormed
  obtain ⟨word, name, region, limit, decimal, tokenized, spelled, seen,
    unlimited, filtered, spelled', numeral⟩ := form.tokens
  obtain ⟨out, after, ran, untouched, _⟩ :=
    projectQuery_sound wellFormed live.named line
  refine ⟨out, after, ran, untouched, ?_⟩
  have number := numeral.fromChars
  by_cases small : n < 2 ^ 64
  · rw [if_pos small] at number
    have projection : Projection strtod engine.catalog
        (matrixparseTokenize line) column filter (some (UInt64.ofNat n)) := by
      rw [tokenized]
      exact .select spelled seen unlimited filtered (.limit spelled' number)
    obtain ⟨after', ran'⟩ :=
      projectQuery_complete wellFormed live.named projection
    cases ran.symm.trans ran'
    have value : (UInt64.ofNat n).toNat = n :=
      UInt64.toNat_ofNat_of_lt' small
    unfold limited columnCap
    rw [Option.getD_some]
    by_cases zero : n = 0
    · subst zero
      rfl
    · have nonzero : UInt64.ofNat n ≠ 0 := by
        intro same
        rw [same] at value
        exact zero value.symm
      rw [if_neg nonzero, if_neg zero, if_pos small, value, List.take_take]
  · rw [if_neg small] at number
    have nothing : out = [] := by
      have split := splitLimit_none unlimited spelled' number
      unfold projectQuery at ran
      rw [tokenized] at ran
      dsimp only at ran
      rw [split] at ran
      split at ran <;> cases ran <;> rfl
    have large : n ≠ 0 := by omega
    rw [nothing, columnCap, if_neg large, if_neg small, List.take_zero,
      List.take_nil]

theorem columnLine_prints {line shown : Bytes} {column : ColumnView}
    {filter : Option (ColumnView × MatrixPredicate)} {n : Nat}
    (form : ColumnLine strtod engine.catalog line shown column filter n)
    (printDouble : UInt64 → Bytes) (ns : Nat → UInt64) (mode : OutMode) :
    ∃ lines after, engine.catalog.runSql strtod printDouble ns mode line =
        some (lines, after) ∧
      dataRows lines = ((column.selected filter).take (columnCap n)).map
        fun v => [engine.catalog.decodeProj printDouble
          (engine.catalog.columnId shown) v] := by
  obtain ⟨out, after, ran, _, capped⟩ := projectQuery_capped live form
  have kept := (live.settled.kept.projectQuery strtod line).ensures _ _ ran
  obtain ⟨head, tail, cut⟩ : ∃ head tail,
      splitWs line = head :: shown :: tail := by
    have stands := form.second
    generalize splitWs line = words at stands ⊢
    rcases words with _ | ⟨head, _ | ⟨name, tail⟩⟩
    · cases stands
    · cases stands
    · cases stands
      exact ⟨head, tail, rfl⟩
  have printed : engine.catalog.runSql strtod printDouble ns mode line =
      some ((out.take 100).map (fun v => CliLine.row
        [after.decodeProj printDouble (engine.catalog.columnId shown) v]) ++
          moreNote mode out.length "rows" 100, after) := by
    unfold Catalog.runSql
    rw [form.route]
    dsimp only
    rw [Catalog.runProjection, cut]
    dsimp only
    rw [if_neg form.known, ran]
    rfl
  refine ⟨_, after, printed, ?_⟩
  rw [dataRows_rows, capped]
  simp only [kept.data.shown.decodeProj]

end

/-! ## A projection of two columns -/

/-- `SELECT l, r JOIN lk = rk LIMIT n`. -/
structure PairLine (catalog : Catalog κ) (line select lk rk : Bytes)
    (lcol rcol : UInt64) (n : Nat) : Prop where
  form : ∃ word decimal, JoinForm line select lk rk [word, decimal] ∧
    Spells word "LIMIT" ∧ Numeral decimal n
  columns : ∃ l r, select = l ++ ','.toUInt8 :: r ∧ ','.toUInt8 ∉ l ∧
    lcol = catalog.columnId (cliTrim l) ∧ rcol = catalog.columnId (cliTrim r)
  flat : select.contains '('.toUInt8 = false

/-- How many pairs of rows are printed. -/
def pairCap (n : Nat) : Nat := if n = 0 then 100 else min n (2 ^ 64 - 1)

/-- The fields of a pair of rows. -/
def pairFields (printDouble : UInt64 → Bytes) (catalog : Catalog κ)
    (lcol rcol : UInt64) (l r : ColumnView) (pair : Nat × Nat) : List Bytes :=
  [catalog.decodeProj printDouble lcol (l.word pair.1),
    catalog.decodeProj printDouble rcol (r.word pair.2)]

/-- Both projected columns have the rows of some pairs. -/
def PairsInside (l r : ColumnView) (pairs : List (Nat × Nat)) : Prop :=
  ∀ pair ∈ pairs, pair.1 < l.rows ∧ pair.2 < r.rows

section
variable {catalog : Catalog κ} (wellFormed : catalog.WellFormed)
  {lk rk : Bytes} {left right : ColumnView}
  (keys : JoinKeys catalog lk rk left right) {select : Bytes}
  {lcol rcol : UInt64} {l r : ColumnView}
  (lSeen : catalog.view lcol = some l) (rSeen : catalog.view rcol = some r)
  {n : Nat} {line : Bytes}
  (pairLine : PairLine catalog line select lk rk lcol rcol n)
  (printDouble : UInt64 → Bytes) (mode : OutMode)

include wellFormed keys lSeen rSeen pairLine

/-- What is left of the projection when the line has been read. -/
theorem runJoinProjection_eq {word decimal : Bytes}
    (spelled : Spells word "LIMIT") (numeral : Numeral decimal n) :
    ∃ joined, Keeps catalog joined ∧
      catalog.runJoinProjection printDouble mode left.type
        (catalog.columnId lk) (catalog.columnId rk) select [word, decimal] =
      (do
        let shown := (keyPairs left right).take (pairCap n)
        let (lv, catalog) ← joined.gather lcol
          (shown.map fun pair => UInt64.ofNat pair.1)
        let (rv, catalog) ← catalog.gather rcol
          (shown.map fun pair => UInt64.ofNat pair.2)
        let rows := List.zipWith
          (fun l r => CliLine.row [catalog.decodeProj printDouble lcol l,
            catalog.decodeProj printDouble rcol r]) lv rv
        some (rows ++ moreNote mode (keyPairs left right).length "matches"
          (pairCap n), catalog)) := by
  obtain ⟨joined, keeps, _, ran⟩ := joinPairs_eq wellFormed keys
  refine ⟨joined, keeps, ?_⟩
  obtain ⟨front, behind, rfl, plain, rfl, rfl⟩ := pairLine.columns
  have passes : ∀ c ∈ front, (c != ','.toUInt8) = true := by
    intro c member
    exact bne_iff_ne.mpr fun same => plain (same ▸ member)
  obtain ⟨before, after⟩ := takeWhile_append_cons passes
    (by decide : (','.toUInt8 != ','.toUInt8) = false) behind
  have limited : joinLimit [word, decimal] = some (strtoull decimal) := by
    unfold joinLimit
    exact if_pos spelled
  have cap : (if strtoull decimal = 0 then 100 else (strtoull decimal).toNat) =
      pairCap n := by
    have value := numeral.strtoull
    unfold pairCap
    by_cases zero : n = 0
    · have same : strtoull decimal = 0 := by
        apply UInt64.toNat_inj.mp
        rw [value, zero]
        rfl
      rw [if_pos same, if_pos zero]
    · have nonzero : strtoull decimal ≠ 0 := by
        intro same
        rw [same, UInt64.toNat_zero] at value
        omega
      rw [if_neg nonzero, if_neg zero, value]
  have known : ¬ (catalog.columnId (cliTrim front) = 0 ∨
      catalog.columnId (cliTrim behind) = 0) :=
    not_or.mpr ⟨known_of_view wellFormed lSeen,
      known_of_view wellFormed rSeen⟩
  have comma : (!(front ++ ','.toUInt8 :: behind).contains ','.toUInt8) =
      false := by
    simp
  unfold runJoinProjection
  rw [limited]
  dsimp only
  rw [comma, before, after, List.drop_one, List.tail_cons]
  simp only [Bool.false_eq_true, if_false, if_neg known, ran, cap,
    Option.bind_eq_bind, Option.bind_some, ← List.map_take, List.map_map,
    List.length_map, Function.comp_def, rowNumbers]

theorem runJoinProjection_inside {word decimal : Bytes}
    (spelled : Spells word "LIMIT") (numeral : Numeral decimal n)
    (inside : PairsInside l r ((keyPairs left right).take (pairCap n))) :
    ∃ lines after, catalog.runJoinProjection printDouble mode left.type
        (catalog.columnId lk) (catalog.columnId rk) select [word, decimal] =
        some (lines, after) ∧
      dataRows lines = ((keyPairs left right).take (pairCap n)).map
        (pairFields printDouble catalog lcol rcol l r) := by
  obtain ⟨joined, keeps, ran⟩ := runJoinProjection_eq wellFormed keys lSeen
    rSeen pairLine printDouble mode spelled numeral
  have lSeen' : joined.view lcol = some l := (keeps.view lcol).trans lSeen
  obtain ⟨middle, keeps', _, gathered⟩ := gather_side keeps.wellFormed lSeen'
    fun pair member => (inside pair member).1
  have rSeen' : middle.view rcol = some r :=
    (keeps'.view rcol).trans ((keeps.view rcol).trans rSeen)
  obtain ⟨after, keeps'', _, gathered'⟩ := gather_side keeps'.wellFormed
    rSeen' fun pair member => (inside pair member).2
  have whole := keeps.trans (keeps'.trans keeps'')
  rw [ran]
  dsimp only
  rw [gathered]
  simp only [Option.bind_eq_bind, Option.bind_some]
  rw [gathered']
  simp only [Option.bind_some, List.zipWith_map, List.zipWith_self]
  refine ⟨_, after, rfl, ?_⟩
  rw [dataRows_rows]
  simp only [whole.shown.decodeProj]
  rfl

theorem runJoinProjection_outside {word decimal : Bytes}
    (spelled : Spells word "LIMIT") (numeral : Numeral decimal n)
    (outside : ¬ PairsInside l r ((keyPairs left right).take (pairCap n))) :
    catalog.runJoinProjection printDouble mode left.type
      (catalog.columnId lk) (catalog.columnId rk) select [word, decimal] =
        none := by
  obtain ⟨joined, keeps, ran⟩ := runJoinProjection_eq wellFormed keys lSeen
    rSeen pairLine printDouble mode spelled numeral
  have lSeen' : joined.view lcol = some l := (keeps.view lcol).trans lSeen
  have fits := rows_lt wellFormed keys.leftSeen
  have fits' := rows_lt wellFormed keys.rightSeen
  obtain ⟨pair, member, beyond⟩ : ∃ pair ∈
      (keyPairs left right).take (pairCap n),
      ¬ (pair.1 < l.rows ∧ pair.2 < r.rows) := by
    simpa [PairsInside] using outside
  obtain ⟨small, small'⟩ := mem_keyPairs (List.mem_of_mem_take member)
  have row : ∀ {i : Nat}, i < 2 ^ 64 → (UInt64.ofNat i).toNat = i :=
    fun bound => UInt64.toNat_ofNat_of_lt' bound
  rw [ran]
  dsimp only
  by_cases lefts : ∀ pair ∈ (keyPairs left right).take (pairCap n),
      pair.1 < l.rows
  · obtain ⟨middle, keeps', _, gathered⟩ :=
      gather_side keeps.wellFormed lSeen' lefts
    have rSeen' : middle.view rcol = some r :=
      (keeps'.view rcol).trans ((keeps.view rcol).trans rSeen)
    have past : r.rows ≤ (UInt64.ofNat pair.2).toNat := by
      rw [row (by omega)]
      have inside := lefts pair member
      omega
    have failed := gather_none keeps'.wellFormed rSeen'
      (List.mem_map_of_mem (f := fun pair => UInt64.ofNat pair.2) member) past
    rw [gathered]
    simp only [Option.bind_eq_bind, Option.bind_some, failed,
      Option.bind_none]
  · simp only [not_forall, Nat.not_lt] at lefts
    obtain ⟨other, member', beyond'⟩ := lefts
    obtain ⟨small, _⟩ := mem_keyPairs (List.mem_of_mem_take member')
    have past : l.rows ≤ (UInt64.ofNat other.1).toNat := by
      rw [row (by omega)]
      exact beyond'
    have failed := gather_none keeps.wellFormed lSeen'
      (List.mem_map_of_mem (f := fun pair => UInt64.ofNat pair.1) member')
      past
    simp only [failed, Option.bind_eq_bind, Option.bind_none]

end

section
variable [SoundCost κ] {strtod : Bytes → StrtodResult} {engine : Analytics κ}
  (live : Analytics.Live strtod engine) (printDouble : UInt64 → Bytes)
  (ns : Nat → UInt64) (mode : OutMode)

include live

theorem columnLimit_iff {line shown : Bytes} {column : ColumnView}
    {filter : Option (ColumnView × MatrixPredicate)} {n : Nat}
    (form : ColumnLine strtod engine.catalog line shown column filter n) :
    (∃ lines after, engine.catalog.runSql strtod printDouble ns mode line =
        some (lines, after) ∧
      dataRows lines = ((column.selected filter).take n).map fun v =>
        [engine.catalog.decodeProj printDouble
          (engine.catalog.columnId shown) v]) ↔
      column.selected filter = [] ∨
        n ≠ 0 ∧ n < 2 ^ 64 ∧ min n (column.selected filter).length ≤ 100 := by
  obtain ⟨lines, after, ran, rows⟩ :=
    columnLine_prints live form printDouble ns mode
  have honoured : min (columnCap n) (column.selected filter).length =
      min n (column.selected filter).length ↔
      column.selected filter = [] ∨
        n ≠ 0 ∧ n < 2 ^ 64 ∧ min n (column.selected filter).length ≤ 100 := by
    rw [← List.length_eq_zero_iff]
    unfold columnCap
    split
    · omega
    · split <;> omega
  constructor
  · rintro ⟨lines', after', ran', rows'⟩
    cases ran.symm.trans ran'
    exact honoured.mp ((map_take_eq_iff _ _ _ _).mp (rows.symm.trans rows'))
  · intro holds
    exact ⟨lines, after, ran,
      rows.trans ((map_take_eq_iff _ _ _ _).mpr (honoured.mpr holds))⟩

theorem pairLimit_iff {line select lk rk : Bytes} {lcol rcol : UInt64}
    {left right l r : ColumnView} {n : Nat}
    (form : PairLine engine.catalog line select lk rk lcol rcol n)
    (keys : JoinKeys engine.catalog lk rk left right)
    (lSeen : engine.catalog.view lcol = some l)
    (rSeen : engine.catalog.view rcol = some r) :
    (∃ lines after, engine.catalog.runSql strtod printDouble ns mode line =
        some (lines, after) ∧
      dataRows lines = ((keyPairs left right).take n).map
        (pairFields printDouble engine.catalog lcol rcol l r)) ↔
      countsPairs select = false ∧
        PairsInside l r ((keyPairs left right).take n) ∧
        (keyPairs left right = [] ∨
          n ≠ 0 ∧ min n (keyPairs left right).length < 2 ^ 64) := by
  have wellFormed := live.settled.wellFormed
  obtain ⟨word, decimal, joined, spelled, numeral⟩ := form.form
  have routed : engine.catalog.runSql strtod printDouble ns mode line =
      engine.catalog.joinBranch printDouble strtod mode left.type
        (engine.catalog.columnId lk) (engine.catalog.columnId rk) select
        [word, decimal] := by
    unfold Catalog.runSql
    rw [joined.route]
    exact runJoin_eq wellFormed keys printDouble strtod mode joined
  cases counts : countsPairs select with
  | true =>
      simp only [Bool.true_eq_false, false_and, iff_false]
      rintro ⟨lines, after, ran, rows⟩
      rw [routed, Catalog.joinBranch, if_pos counts] at ran
      obtain ⟨⟨count, _⟩, _, same⟩ := Option.map_eq_some_iff.mp ran
      cases same
      -- A count has one field, a pair of rows two.
      cases pairs : (keyPairs left right).take n with
      | nil =>
          rw [pairs] at rows
          cases rows
      | cons pair pairs' =>
          rw [pairs] at rows
          have fields := congrArg List.length (List.cons.inj rows).1
          cases fields
  | false =>
      rw [Catalog.joinBranch, if_neg (by simp [counts]),
        if_neg (Bool.eq_false_iff.mp form.flat)] at routed
      have honoured : min (pairCap n) (keyPairs left right).length =
          min n (keyPairs left right).length ↔ keyPairs left right = [] ∨
            n ≠ 0 ∧ min n (keyPairs left right).length < 2 ^ 64 := by
        rw [← List.length_eq_zero_iff]
        unfold pairCap
        split <;> omega
      simp only [true_and]
      by_cases inside : PairsInside l r
          ((keyPairs left right).take (pairCap n))
      · obtain ⟨lines, after, ran, rows⟩ := runJoinProjection_inside
          wellFormed keys lSeen rSeen form printDouble mode spelled numeral
          inside
        constructor
        · rintro ⟨lines', after', ran', rows'⟩
          rw [routed] at ran'
          cases ran.symm.trans ran'
          have same := (map_take_eq_iff _ _ _ _).mp (rows.symm.trans rows')
          rw [List.take_eq_take_iff.mpr same] at inside
          exact ⟨inside, honoured.mp same⟩
        · rintro ⟨_, holds⟩
          refine ⟨lines, after, routed.trans ran, rows.trans ?_⟩
          exact (map_take_eq_iff _ _ _ _).mpr (honoured.mpr holds)
      · have failed := runJoinProjection_outside wellFormed keys lSeen rSeen
          form printDouble mode spelled numeral inside
        constructor
        · rintro ⟨lines, after, ran, _⟩
          rw [routed, failed] at ran
          cases ran
        · rintro ⟨within, holds⟩
          rw [← List.take_eq_take_iff.mpr (honoured.mpr holds)] at within
          exact absurd within inside

/-- A limit is honoured by a projection of a column when there is nothing to
show, or when it is a positive number of 64 bits and at most a hundred rows are
to be shown.  It is honoured by a projection over a join when it is positive and
the projected columns have the rows of the pairs. -/
theorem limits_iff :
    (∀ line shown column filter n,
      ColumnLine strtod engine.catalog line shown column filter n →
      ((∃ lines after,
          engine.catalog.runSql strtod printDouble ns mode line =
            some (lines, after) ∧
          dataRows lines = ((column.selected filter).take n).map fun v =>
            [engine.catalog.decodeProj printDouble
              (engine.catalog.columnId shown) v]) ↔
        column.selected filter = [] ∨ n ≠ 0 ∧ n < 2 ^ 64 ∧
          min n (column.selected filter).length ≤ 100)) ∧
    ∀ line select lk rk lcol rcol left right l r n,
      PairLine engine.catalog line select lk rk lcol rcol n →
      JoinKeys engine.catalog lk rk left right →
      engine.catalog.view lcol = some l →
      engine.catalog.view rcol = some r →
      ((∃ lines after,
          engine.catalog.runSql strtod printDouble ns mode line =
            some (lines, after) ∧
          dataRows lines = ((keyPairs left right).take n).map
            (pairFields printDouble engine.catalog lcol rcol l r)) ↔
        countsPairs select = false ∧
          PairsInside l r ((keyPairs left right).take n) ∧
          (keyPairs left right = [] ∨
            n ≠ 0 ∧ min n (keyPairs left right).length < 2 ^ 64)) := by
  constructor
  · intro line shown column filter n form
    exact columnLimit_iff live printDouble ns mode form
  · intro line select lk rk lcol rcol left right l r n form keys lSeen rSeen
    exact pairLimit_iff live printDouble ns mode form keys lSeen rSeen

end

/-! ## Limits of two lines -/

theorem columnLine_sides {engine : Analytics ℚ}
    (live : Analytics.Live Analytics.noNumber engine)
    {line decimal : Bytes} {n : Nat} (seen : engine.catalog.view
      (engine.catalog.columnId (ascii "g")) = some (narrowColumn [7, 3]))
    (route : routeOf line = .projection)
    (second : (splitWs line)[1]? = some (ascii "g"))
    (tokenized : matrixparseTokenize line =
      [ascii "SELECT", ascii "g", ascii "LIMIT", decimal])
    (numeral : Numeral decimal n) :
    ColumnLine Analytics.noNumber engine.catalog line (ascii "g")
      (narrowColumn [7, 3]) none n :=
  ⟨route, second, known_of_view live.settled.wellFormed seen, _, _, [], _, _,
    tokenized, by decide, seen,
    fun token member => absurd member List.not_mem_nil, .absent, by decide,
    numeral⟩

theorem limits_iff_sides :
    ∃ engine : Analytics ℚ,
      (∃ lines after, engine.catalog.runSql Analytics.noNumber (fun _ => [])
          (fun _ => 0) .CSV (ascii "SELECT g LIMIT 1") =
            some (lines, after) ∧
        dataRows lines = (((narrowColumn [7, 3]).selected none).take 1).map
          fun v => [engine.catalog.decodeProj (fun _ => [])
            (engine.catalog.columnId (ascii "g")) v]) ∧
      ∃ lines after, engine.catalog.runSql Analytics.noNumber (fun _ => [])
          (fun _ => 0) .CSV (ascii "SELECT n*, g JOIN u = w LIMIT 2") =
            some (lines, after) ∧
        dataRows lines = ((keyPairs (narrowColumn [4, 4, 5])
          (narrowColumn [4, 5])).take 2).map
            (pairFields (fun _ => []) engine.catalog
              (engine.catalog.columnId (ascii "n*"))
              (engine.catalog.columnId (ascii "g"))
              (wideColumn [10, -20, 30]) (narrowColumn [7, 3])) := by
  obtain ⟨engine, live, keys, _, measured, grouped⟩ := exists_sides
  have form := columnLine_sides live grouped
    (by decide +kernel : routeOf (ascii "SELECT g LIMIT 1") = .projection)
    (by decide +kernel) (by decide +kernel)
    (⟨by decide, by decide, rfl⟩ : Numeral (ascii "1") 1)
  have pairs : PairLine engine.catalog
      (ascii "SELECT n*, g JOIN u = w LIMIT 2") (ascii "n*, g") (ascii "u")
      (ascii "w") (engine.catalog.columnId (ascii "n*"))
      (engine.catalog.columnId (ascii "g")) 2 :=
    ⟨⟨ascii "LIMIT", ascii "2", joinForm_of_parts [ascii "n*,", ascii "g"]
      (by decide +kernel) (by decide +kernel) (by decide) (by decide),
      by decide, ⟨by decide, by decide, rfl⟩⟩,
      ⟨ascii "n*", ascii " g", rfl, by decide, rfl, rfl⟩, by decide⟩
  have inside : PairsInside (wideColumn [10, -20, 30]) (narrowColumn [7, 3])
      ((keyPairs (narrowColumn [4, 4, 5]) (narrowColumn [4, 5])).take 2) := by
    unfold PairsInside
    decide +kernel
  have limits := limits_iff live (fun _ => []) (fun _ => 0) .CSV
  refine ⟨engine, ?_, ?_⟩
  · exact (limits.1 _ _ _ _ _ form).mpr
      (.inr ⟨by decide, by decide, by decide +kernel⟩)
  · exact (limits.2 _ _ _ _ _ _ _ _ _ _ _ pairs keys measured grouped).mpr
      ⟨by decide, inside, .inr ⟨by decide, by decide +kernel⟩⟩

/-- A limit of zero shows both rows. -/
theorem zero_shows_all :
    ∃ (engine : Analytics ℚ) (lines : List CliLine) (after : Catalog ℚ),
      Analytics.Live Analytics.noNumber engine ∧
      ColumnLine Analytics.noNumber engine.catalog
        (ascii "SELECT g LIMIT 0") (ascii "g") (narrowColumn [7, 3]) none 0 ∧
      engine.catalog.runSql Analytics.noNumber (fun _ => []) (fun _ => 0) .LIST
        (ascii "SELECT g LIMIT 0") = some (lines, after) ∧
      (dataRows lines).length = 2 ∧
      min 0 ((narrowColumn [7, 3]).selected none).length = 0 := by
  obtain ⟨engine, live, _, _, _, grouped⟩ := exists_sides
  have form := columnLine_sides live grouped
    (by decide +kernel : routeOf (ascii "SELECT g LIMIT 0") = .projection)
    (by decide +kernel) (by decide +kernel)
    (⟨by decide, by decide, rfl⟩ : Numeral (ascii "0") 0)
  obtain ⟨lines, after, ran, rows⟩ :=
    columnLine_prints live form (fun _ => []) (fun _ => 0) .LIST
  refine ⟨engine, lines, after, live, form, ran, ?_, Nat.zero_min _⟩
  rw [rows, List.length_map]
  decide +kernel

end MatrixDB
