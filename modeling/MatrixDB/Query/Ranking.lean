import MatrixDB.Lib.TopRanked
import MatrixDB.Query.Grouping
import MatrixDB.Query.Strings

/-!
# What groups are ranked and filtered by

`ORDER BY` and `HAVING` compare the 64 bits of an aggregate.  That is the order
of values for `uint32` columns and for counts of any column; the signed
aggregates of an `int64` column compare as their two's complement.
-/

namespace MatrixDB

open Lib

/-- The value that the bits of an aggregate stand for. -/
inductive AggregateValue (ty : MatrixType) (agg : MatrixAggOp)
    (bits : UInt64) : Int → Prop where
  | unsigned (u32 : ty = .U32) : AggregateValue ty agg bits bits.toNat
  | counted (i64 : ty = .I64) (counts : agg = AGG_COUNT) :
      AggregateValue ty agg bits bits.toNat
  | signed (i64 : ty = .I64) (other : agg ≠ AGG_COUNT) :
      AggregateValue ty agg bits bits.toInt64.toInt
  | countedDoubles {n : Nat} (f64 : ty = .F64) (counts : agg = AGG_COUNT)
      (small : n ≤ 2 ^ 53) (encoded : bits = countBits .F64 n) :
      AggregateValue ty agg bits n

/-! ## Counts of doubles -/

theorem ofNat_last_add_one :
    Float.ofNat (2 ^ 53 - 1) + 1.0 = Float.ofNat (2 ^ 53) := by
  apply Float.toBits_inj.mp
  decide +kernel

theorem ofNat_limit_add_one :
    Float.ofNat (2 ^ 53) + 1.0 = Float.ofNat (2 ^ 53) := by
  apply Float.toBits_inj.mp
  decide +kernel

/-- Counting in doubles stops where one more is lost. -/
theorem fold_count_doubles (values : List Float) (start : Nat)
    (small : start ≤ 2 ^ 53) :
    values.foldl (f64Kernel.groupStep AGG_COUNT) (Float.ofNat start) =
      Float.ofNat (min (start + values.length) (2 ^ 53)) := by
  induction values generalizing start with
  | nil =>
      rw [List.length_nil, Nat.add_zero, Nat.min_eq_left small]
      rfl
  | cons v values induction =>
      have step : f64Kernel.groupStep AGG_COUNT (Float.ofNat start) v =
          Float.ofNat (min (start + 1) (2 ^ 53)) := by
        by_cases more : start + 1 < 2 ^ 53
        · rw [Nat.min_eq_left (Nat.le_of_lt more), ← ofNat_add_ofNat more,
            ← float_one]
          rfl
        · rw [Nat.min_eq_right (Nat.not_lt.mp more)]
          by_cases full : start = 2 ^ 53
          · rw [full]
            exact ofNat_limit_add_one
          · have last : start = 2 ^ 53 - 1 := by omega
            rw [last]
            exact ofNat_last_add_one
      rw [List.foldl_cons, step, induction _ (Nat.min_le_right _ _),
        List.length_cons]
      congr 1
      omega

theorem toBits_limit :
    (Float.ofNat (2 ^ 53 - 1)).toBits < (Float.ofNat (2 ^ 53)).toBits := by
  decide +kernel

/-- The bits of counts are in the order of the counts, the largest too. -/
theorem countBits_lt {a b : Nat} (below : a < b) (small : b ≤ 2 ^ 53) :
    countBits .F64 a < countBits .F64 b := by
  by_cases full : b = 2 ^ 53
  · subst full
    by_cases last : a = 2 ^ 53 - 1
    · rw [last]
      exact toBits_limit
    · have inner : a < 2 ^ 53 - 1 := by omega
      exact UInt64.lt_trans (toBits_ofNat_lt inner (by omega)) toBits_limit
  · exact toBits_ofNat_lt below (by omega)

namespace AggregateValue

variable {ty : MatrixType} {agg : MatrixAggOp} {a b : UInt64} {v w : Int}

theorem mod_of_integer (value : AggregateValue ty agg a v)
    (integer : ty ≠ .F64) : v % 2 ^ 64 = a.toNat := by
  have bound := a.toNat_lt
  cases value with
  | unsigned => omega
  | counted => omega
  | signed =>
      have bits : UInt64.ofInt a.toInt64.toInt = a := by
        rw [← toUInt64_eq_ofInt, UInt64.toUInt64_toInt64]
      have number := congrArg UInt64.toNat bits
      rw [UInt64.ofInt, UInt64.toNat_ofNat_of_lt'
        (by simp only [UInt64.size]; omega)] at number
      omega
  | countedDoubles f64 => exact absurd f64 integer

theorem count_of_doubles (value : AggregateValue ty agg a v)
    (f64 : ty = .F64) :
    ∃ n : Nat, v = n ∧ n ≤ 2 ^ 53 ∧ a = countBits .F64 n := by
  cases value with
  | unsigned u32 => cases f64.symm.trans u32
  | counted i64 => cases f64.symm.trans i64
  | signed i64 => cases f64.symm.trans i64
  | @countedDoubles n _ _ small encoded => exact ⟨n, rfl, small, encoded⟩

/-- Modulo `2 ^ 64`, values are in the order of their bits. -/
theorem mod_le (first : AggregateValue ty agg a v)
    (second : AggregateValue ty agg b w) (below : b ≤ a) :
    w % 2 ^ 64 ≤ v % 2 ^ 64 := by
  by_cases f64 : ty = .F64
  · obtain ⟨n, rfl, nSmall, rfl⟩ := first.count_of_doubles f64
    obtain ⟨m, rfl, mSmall, rfl⟩ := second.count_of_doubles f64
    have ordered : m ≤ n := by
      apply Nat.not_lt.mp
      intro more
      exact absurd (countBits_lt more mSmall) (UInt64.not_lt.mpr below)
    omega
  · rw [first.mod_of_integer f64, second.mod_of_integer f64]
    exact Int.ofNat_le.mpr (UInt64.le_iff_toNat_le.mp below)

/-- Values of `uint32` columns and counts are their own remainders. -/
theorem mod_eq (value : AggregateValue ty agg a v)
    (natural : ty = .U32 ∨ agg = AGG_COUNT) : v % 2 ^ 64 = v := by
  have bound := a.toNat_lt
  cases value with
  | unsigned => omega
  | counted => omega
  | signed i64 other =>
      rcases natural with u32 | counts
      · cases i64.symm.trans u32
      · exact absurd counts other
  | countedDoubles => omega

end AggregateValue

/-! ## What a grouped answer holds -/

section
variable {value : ColumnView} {maxGroups : UInt32} {q : MatrixQuery}
  {key filter : Option ColumnView} {out : List UInt64}

/-- Every result is a fold over some of the rows, null masks or not. -/
theorem answered_folds {V A : Type} {K : AggKernel V A}
    {read : Bytes → Nat → V} {hit : MatrixQuery → V → Bool}
    (element : ElementKernel value.type K read hit)
    (grouped : q.grouped = true)
    (answered : Answered maxGroups q value key filter out) :
    ∀ bits ∈ out, ∃ values : List V,
      bits = K.encode (K.fold q.agg values) := by
  have folds : ∀ n groups keep (keys : Nat → UInt32) (v : Nat → V),
      ∀ bits ∈ (K.groupRows q.agg n groups keep keys v).map K.encode,
        ∃ values : List V, bits = K.encode (K.fold q.agg values) := by
    intro n groups keep keys v bits member
    rw [K.groupRows_eq, List.map_map] at member
    obtain ⟨g, _, rfl⟩ := List.mem_map.mp member
    exact ⟨_, rfl⟩
  cases answered with
  | scalarCross _ scalar =>
      rw [grouped] at scalar
      cases scalar
  | nullable _ scalar =>
      rw [grouped] at scalar
      cases scalar
  | scan _ scalar =>
      rw [grouped] at scalar
      cases scalar
  | @groupedCross k f cross _ keyed admitted found u32 aligned result =>
      have keysFit := words_fit admitted.keyU32 admitted.aligned
      have filterFit := words_fit u32 aligned
      rw [admitted.aligned, element.reduceGroupedCross_eq q keysFit filterFit
        (rows_fit value), AggKernel.groupReduceFilteredBy] at result
      rw [← Option.some.inj result]
      exact folds _ _ _ _ _
  | @grouped k own _ keyed admitted lengths result =>
      have keysFit := words_fit admitted.keyU32 admitted.aligned
      rw [element.reduceGrouped_eq q keysFit (rows_fit value)] at result
      obtain ⟨rows, reduced, rfl⟩ := Option.map_eq_some_iff.mp result
      split at reduced
      · obtain ⟨live, _, rfl⟩ := Option.map_eq_some_iff.mp reduced
        exact folds _ _ _ _ _
      · obtain ⟨live, _, rfl⟩ := Option.map_eq_some_iff.mp reduced
        exact folds _ _ _ _ _

/-- Every group of an integer column, and every count, has a value. -/
theorem exists_aggregateValue (grouped : q.grouped = true)
    (answered : Answered maxGroups q value key filter out)
    (valued : value.type = .F64 → q.agg = AGG_COUNT) :
    ∀ bits ∈ out, ∃ v, AggregateValue value.type q.agg bits v := by
  intro bits member
  cases ty : value.type with
  | U32 => exact ⟨_, .unsigned rfl⟩
  | I64 =>
      by_cases counts : q.agg = AGG_COUNT
      · exact ⟨_, .counted rfl counts⟩
      · exact ⟨_, .signed rfl counts⟩
  | F64 =>
      have counts := valued ty
      have element := ElementKernel.f64
      rw [← ty] at element
      obtain ⟨values, rfl⟩ := answered_folds element grouped answered bits
        member
      have folded := fold_count_doubles values 0 (Nat.zero_le _)
      rw [← float_zero, Nat.zero_add] at folded
      have encoded : f64Kernel.encode (f64Kernel.fold q.agg values) =
          countBits .F64 (min values.length (2 ^ 53)) := by
        rw [counts]
        exact congrArg Float.toBits folded
      exact ⟨_, .countedDoubles rfl counts (Nat.min_le_right _ _) encoded⟩

end

/-! ## Rankings -/

theorem mem_numbered {out : List UInt64} {pair : UInt64 × UInt64}
    (member : pair ∈ numbered out) : pair.2 ∈ out := by
  obtain ⟨⟨bits, g⟩, indexed, rfl⟩ := List.mem_map.mp member
  exact List.fst_mem_of_mem_zipIdx indexed

theorem topOf_partialSort (n : Nat) (groups : List (UInt64 × UInt64)) :
    TopOf (fun a b => b.2 ≤ a.2) n groups (partialSort n groups) := by
  have top : TopOf (fun a b => decide (b.2 ≤ a.2) = true) n groups
      (partialSort n groups) := by
    apply topOf_take_mergeSort
    · intro a b c first second
      exact decide_eq_true (UInt64.le_trans (of_decide_eq_true second)
        (of_decide_eq_true first))
    · intro a b
      simpa using UInt64.le_total b.2 a.2
  exact top.imp fun _ _ _ _ => of_decide_eq_true

/-- The comparison of a `HAVING`, over values. -/
theorem cmpU64_eq (cmp : MatrixCmp) (v a b : UInt64) :
    cmpU64 cmp v a b = cmp.holds v.toNat a.toNat b.toNat := by
  unfold cmpU64 predMatch MatrixCmp.holds
  cases cmp with
  | GT => simp [UInt64.lt_iff_toNat_lt]
  | GE => simp [UInt64.le_iff_toNat_le]
  | LT => simp [UInt64.lt_iff_toNat_lt]
  | LE => simp [UInt64.le_iff_toNat_le]
  | EQ =>
      rw [Bool.eq_iff_iff]
      simp [UInt64.toNat_inj]
  | NE =>
      rw [Bool.eq_iff_iff]
      simp [UInt64.toNat_inj]
  | BETWEEN => simp [UInt64.le_iff_toNat_le]

section
variable {κ : Type} [SoundCost κ] {catalog : Catalog κ}
  {strtod : Bytes → StrtodResult} {ns : UInt64} {sql : Bytes}
  {q : MatrixQuery} {value : ColumnView} {out : List UInt64}
  {after : Catalog κ}

/-- A grouped query string is parsed and its groups are answered. -/
structure GroupsAnswered (strtod : Bytes → StrtodResult) (catalog : Catalog κ)
    (ns : UInt64) (sql : Bytes) (q : MatrixQuery) (value : ColumnView)
    (out : List UInt64) (after : Catalog κ) : Prop where
  grouped : q.grouped = true
  run : ∃ parsed, catalog.parseQuery strtod sql = some (.OK, q, parsed) ∧
    parsed.view q.valueCol = some value ∧
    parsed.executeQuery ns q = some (.OK, out, after)

/-- The tail of a `HAVING` query. -/
structure HavingTail (catalog : Catalog κ) (tokens : List Bytes)
    (q : MatrixQuery) (head : List Bytes) (cmp : MatrixCmp)
    (threshold : UInt64) : Prop where
  tail : ∃ word key op v, tokens = head ++ [word, key, op, v] ∧
    Spells word "HAVING" ∧
    (up key = aggName q.agg ∨ catalog.columnId key = q.valueCol) ∧
    cmpOf op = some cmp ∧ fromCharsU64 v = some threshold
  first : ∀ token ∈ head, ¬ Spells token "HAVING"

theorem topQuery_answered
    (answered : GroupsAnswered strtod catalog ns sql q value out after)
    (limited : q.limit ≠ 0) :
    catalog.topQuery strtod ns sql =
      some (partialSort q.limit.toNat (numbered out), after) := by
  obtain ⟨parsed, first, _, ok⟩ := answered.run
  simp [Catalog.topQuery, first, answered.grouped, limited,
    Catalog.topGroups, Catalog.groupsOf, ok]

theorem havingQuery_answered (wellFormed : catalog.WellFormed) {head : List Bytes} {cmp : MatrixCmp}
    {threshold : UInt64}
    (answered : GroupsAnswered strtod catalog ns (joinTokens head) q value out
      after)
    (tail : HavingTail catalog (matrixparseTokenize sql) q head cmp
      threshold) :
    catalog.havingQuery strtod ns sql =
      some ((numbered out).filter (fun pair => cmpU64 cmp pair.2 threshold 0),
        after) := by
  obtain ⟨parsed, first, _, ok⟩ := answered.run
  obtain ⟨word, key, op, v, tokens, spelled, named, signed, number⟩ :=
    tail.tail
  obtain ⟨_, _, _, _, _, _, _, keeps⟩ :=
    Catalog.parseQuery_grouped wellFormed first answered.grouped
  have names : parsed.columnId key = catalog.columnId key := by
    rw [Catalog.columnId, keeps.nameToId]
    rfl
  rw [← names] at named
  have other : ∀ token ∈ head, (!(up token == ascii "HAVING")) = true := by
    intro token member
    simpa [Spells] using tail.first token member
  have found : (up word == ascii "HAVING") = true := by
    simpa [Spells] using spelled
  have behind : (head ++ [word, key, op, v]).dropWhile
      (fun token => !(up token == ascii "HAVING")) = [word, key, op, v] := by
    rw [List.dropWhile_append_of_pos other,
      List.dropWhile_cons_of_neg (by simp [found])]
  have front : (head ++ [word, key, op, v]).takeWhile
      (fun token => !(up token == ascii "HAVING")) = head := by
    rw [List.takeWhile_append_of_pos other,
      List.takeWhile_cons_of_neg (by simp [found]), List.append_nil]
  unfold Catalog.havingQuery
  simp only [tokens, behind, front, first, signed, number]
  simp [answered.grouped, named, Catalog.having, Catalog.groupsOf, ok]

/-- The groups of an answered query have values. -/
theorem GroupsAnswered.valued (wellFormed : catalog.WellFormed)
    (answered : GroupsAnswered strtod catalog ns sql q value out after)
    (valued : value.type = .F64 → q.agg = AGG_COUNT) :
    ∀ pair ∈ numbered out, ∃ v,
      AggregateValue value.type q.agg pair.2 v := by
  obtain ⟨parsed, first, seen, ok⟩ := answered.run
  obtain ⟨_, _, _, _, _, _, _, keeps⟩ :=
    Catalog.parseQuery_grouped wellFormed first answered.grouped
  obtain ⟨other, same, folds⟩ :=
    (Catalog.executeQuery_ok keeps.wellFormed).mp ⟨after, ok⟩
  cases seen.symm.trans same
  intro pair member
  exact exists_aggregateValue answered.grouped folds valued pair.2
    (mem_numbered member)

/-- The groups that a top-N query ranks by value, and those that a `HAVING`
query keeps by value, up to the remainder modulo `2 ^ 64`. -/
theorem ranks_by_value (wellFormed : catalog.WellFormed) :
    (∀ sql q value out after,
      GroupsAnswered strtod catalog ns sql q value out after →
      q.limit ≠ 0 → (value.type = .F64 → q.agg = AGG_COUNT) →
      ∃ result, catalog.topQuery strtod ns sql = some (result, after) ∧
        (∀ pair ∈ numbered out, ∃ v,
          AggregateValue value.type q.agg pair.2 v) ∧
        TopOf (fun a b => ∀ v w, AggregateValue value.type q.agg a.2 v →
          AggregateValue value.type q.agg b.2 w →
            w % 2 ^ 64 ≤ v % 2 ^ 64) q.limit.toNat (numbered out) result ∧
        (value.type = .U32 ∨ q.agg = AGG_COUNT →
          TopOf (fun a b => ∀ v w, AggregateValue value.type q.agg a.2 v →
            AggregateValue value.type q.agg b.2 w → w ≤ v)
            q.limit.toNat (numbered out) result)) ∧
    ∀ sql head q value out after cmp threshold,
      HavingTail catalog (matrixparseTokenize sql) q head cmp threshold →
      GroupsAnswered strtod catalog ns (joinTokens head) q value out after →
      value.type ≠ .F64 →
      ∃ result, catalog.havingQuery strtod ns sql = some (result, after) ∧
        result.Sublist (numbered out) ∧
        (∀ pair ∈ numbered out, ∃ v,
          AggregateValue value.type q.agg pair.2 v ∧
            (pair ∈ result ↔
              cmp.holds (v % 2 ^ 64) threshold.toNat 0 = true)) := by
  constructor
  · intro sql q value out after answered limited valued
    have top := topOf_partialSort q.limit.toNat (numbered out)
    refine ⟨_, topQuery_answered answered limited,
      answered.valued wellFormed valued, ?_, ?_⟩
    · apply top.imp
      intro a _ b _ below v w first second
      exact first.mod_le second below
    · intro natural
      apply top.imp
      intro a _ b _ below v w first second
      rw [← first.mod_eq natural, ← second.mod_eq natural]
      exact first.mod_le second below
  · intro sql head q value out after cmp threshold tail answered integer
    refine ⟨_, havingQuery_answered wellFormed answered tail,
      List.filter_sublist, ?_⟩
    intro pair member
    obtain ⟨v, number⟩ := answered.valued wellFormed
      (fun f64 => absurd f64 integer) pair member
    refine ⟨v, number, ?_⟩
    rw [List.mem_filter, cmpU64_eq, number.mod_of_integer integer]
    simp [member]

end

/-! ## A accounts -/

/-- Accounts in column 1 and signed amounts in column 2. -/
def accounts : Option (Catalog ℚ) := do
  let catalog ← (Catalog.fresh 1024).loadScanColumn 1 [0, 1]
  let catalog ← catalog.loadScanColumnI64 2 [-1, 5]
  let catalog ← catalog.nameColumn 1 (ascii "k")
  catalog.nameColumn 2 (ascii "v")

theorem wellFormed_accounts {catalog : Catalog ℚ}
    (loaded : accounts = some catalog) : catalog.WellFormed := by
  unfold accounts at loaded
  obtain ⟨first, loaded₁, rest⟩ := Option.bind_eq_some_iff.mp loaded
  obtain ⟨second, loaded₂, rest⟩ := Option.bind_eq_some_iff.mp rest
  obtain ⟨third, named₁, named₂⟩ := Option.bind_eq_some_iff.mp rest
  have loads := Catalog.loadScanColumn_loads
    (Catalog.wellFormed_fresh 1024) loaded₁
  have loads' := Catalog.loadScanColumnI64_loads loads.wellFormed loaded₂
  rw [Catalog.nameColumn_eq named₂, Catalog.nameColumn_eq named₁]
  exact Catalog.wellFormed_names
    (Catalog.wellFormed_names loads'.wellFormed _ _) _ _

def paymentAmounts : ColumnView :=
  { type := .I64
    bytes := [(-1 : Int64), 5].flatMap fun value => u64Bytes value.toUInt64
    nulls := none }

/-- The account with the largest sum. -/
def paymentQuery : MatrixQuery :=
  { valueCol := 2, agg := AGG_SUM, grouped := true, keyCol := 1
    numGroups := 2, limit := 1 }

def paymentString : Bytes :=
  ascii "SELECT SUM(v) GROUP BY k ORDER BY SUM DESC LIMIT 1"

theorem accounts_answered :
    ∃ catalog after, accounts = some catalog ∧ catalog.WellFormed ∧
      GroupsAnswered (fun _ => ⟨0, 0, false⟩) catalog 0 paymentString
        paymentQuery paymentAmounts [0xFFFFFFFFFFFFFFFF, 5] after := by
  have names : accounts.map (fun catalog => (catalog.columnId (ascii "v"),
      catalog.columnId (ascii "k"), catalog.columnType 1,
      catalog.contents 1)) =
        some (2, 1, .U32, some ([0, 1].flatMap u32Bytes)) := by
    decide +kernel
  have answers : accounts.map (fun catalog => (catalog.view 2,
      catalog.answer paymentQuery)) =
        some (some paymentAmounts, some (.OK, [0xFFFFFFFFFFFFFFFF, 5])) := by
    decide +kernel
  obtain ⟨catalog, made, facts⟩ := Option.map_eq_some_iff.mp names
  rw [made] at answers
  simp only [Option.map_some, Option.some.injEq, Prod.mk.injEq]
    at facts answers
  obtain ⟨value, key, u32, held⟩ := facts
  obtain ⟨seen, answer⟩ := answers
  have wellFormed := wellFormed_accounts made
  have tokens : matrixparseTokenize paymentString =
      [ascii "SELECT", ascii "SUM", ascii "(", ascii "v", ascii ")",
        ascii "GROUP", ascii "BY", ascii "k", ascii "ORDER", ascii "BY",
        ascii "SUM", ascii "DESC", ascii "LIMIT", ascii "1"] := by
    decide +kernel
  have select : SelectClause catalog (matrixparseTokenize paymentString)
      (ascii "SUM") { valueCol := 2, agg := AGG_SUM }
      [ascii "GROUP", ascii "BY", ascii "k", ascii "ORDER", ascii "BY",
        ascii "SUM", ascii "DESC", ascii "LIMIT", ascii "1"] := by
    rw [tokens, ← value]
    refine .select (by decide) rfl ?_
    rw [value]
    decide
  have keyed : GroupKey catalog implemented
      [ascii "GROUP", ascii "BY", ascii "k", ascii "ORDER", ascii "BY",
        ascii "SUM", ascii "DESC", ascii "LIMIT", ascii "1"] 1
      [ascii "ORDER", ascii "BY", ascii "SUM", ascii "DESC", ascii "LIMIT",
        ascii "1"] := by
    rw [← key]
    refine .named (by decide) (by decide) ?_ ?_
    · rw [key]
      decide
    · rw [key]
      exact u32
  have ranked : Ranking catalog (ascii "SUM") 2
      [ascii "ORDER", ascii "BY", ascii "SUM", ascii "DESC", ascii "LIMIT",
        ascii "1"] 1 :=
    .top (by decide) (by decide) (.inl (by decide)) (by decide) (by decide)
      (by decide) (by decide)
  have statement : Statement (fun _ => ⟨0, 0, false⟩) catalog implemented
      (matrixparseTokenize paymentString) _ :=
    .query select .absent (.grouped keyed held ranked)
  have groups : keyGroups ([0, 1].flatMap u32Bytes) = 2 := by decide +kernel
  rw [groups] at statement
  obtain ⟨parsed, first⟩ := (parseQuery_ok_iff wellFormed).mpr statement
  obtain ⟨_, _, _, _, _, _, _, keeps⟩ :=
    Catalog.parseQuery_grouped wellFormed first rfl
  obtain ⟨after, _, ran⟩ :=
    Catalog.executeQuery_eq keeps.wellFormed 0 paymentQuery
  rw [keeps.answer, answer] at ran
  exact ⟨catalog, after, made, wellFormed, rfl, parsed, first,
    (keeps.view 2).trans seen, ran⟩

theorem ranks_by_value_accounts :
    ∃ catalog result after, accounts = some catalog ∧
      catalog.topQuery (fun _ => ⟨0, 0, false⟩) 0 paymentString =
        some (result, after) ∧
      result.length = 1 := by
  obtain ⟨catalog, after, made, wellFormed, answered⟩ := accounts_answered
  obtain ⟨result, ran, _, top, _⟩ := (ranks_by_value wellFormed).1 _ _ _ _ _
    answered (by decide) (by intro f64; cases f64)
  exact ⟨catalog, result, after, made, ran, top.length⟩

/-- The account with a negative sum is ranked first. -/
theorem negative_sum_first :
    ∃ catalog after result, accounts = some catalog ∧ catalog.WellFormed ∧
      GroupsAnswered (fun _ => ⟨0, 0, false⟩) catalog 0 paymentString
        paymentQuery paymentAmounts [0xFFFFFFFFFFFFFFFF, 5] after ∧
      catalog.topQuery (fun _ => ⟨0, 0, false⟩) 0 paymentString =
        some (result, after) ∧
      ¬ TopOf (fun a b => ∀ v w, AggregateValue .I64 AGG_SUM a.2 v →
          AggregateValue .I64 AGG_SUM b.2 w → w ≤ v) 1
        (numbered [0xFFFFFFFFFFFFFFFF, 5]) result := by
  obtain ⟨catalog, after, made, wellFormed, answered⟩ := accounts_answered
  refine ⟨catalog, after, _, made, wellFormed, answered,
    topQuery_answered answered (by decide), ?_⟩
  have groups : numbered [0xFFFFFFFFFFFFFFFF, 5] =
      [(0, 0xFFFFFFFFFFFFFFFF), (1, 5)] := by decide
  have sorted : [((0 : UInt64), (0xFFFFFFFFFFFFFFFF : UInt64)),
      (1, 5)].Pairwise fun a b => decide (b.2 ≤ a.2) = true := by decide
  have first : partialSort paymentQuery.limit.toNat
      (numbered [0xFFFFFFFFFFFFFFFF, 5]) = [(0, 0xFFFFFFFFFFFFFFFF)] := by
    rw [groups, partialSort, List.mergeSort_of_pairwise sorted]
    rfl
  rw [first, groups]
  intro top
  obtain ⟨omitted, split, above⟩ := top.among
  have left : ((1 : UInt64), (5 : UInt64)) ∈ omitted := by
    have member := split.mem_iff.mpr (List.mem_cons_of_mem _
      (List.mem_singleton_self ((1 : UInt64), (5 : UInt64))))
    simpa using member
  have wrong := above _ (List.mem_singleton_self _) _ left _ _
    (.signed rfl (by decide)) (.signed rfl (by decide))
  exact absurd wrong (by decide)

end MatrixDB
