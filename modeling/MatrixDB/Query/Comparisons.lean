import MatrixDB.Catalog.History
import MatrixDB.Query.Grammar

/-!
# What a string predicate selects

A `WHERE` on a column of strings compares codes.  The rows it selects are those
whose strings compare as the query says, but for a range that ends below every
string.
-/

namespace MatrixDB

open Lib Catalog

/-! ## Comparisons of strings -/

/-- A comparison with strings, byte by byte; `hi` matters to a range only. -/
structure StringComparison where
  cmp : MatrixCmp
  lo : Bytes
  hi : Bytes

namespace StringComparison

def Holds (comparison : StringComparison) (s : Bytes) : Prop :=
  match comparison.cmp with
  | .GT => comparison.lo < s
  | .GE => comparison.lo ≤ s
  | .LT => s < comparison.lo
  | .LE => s ≤ comparison.lo
  | .EQ => s = comparison.lo
  | .NE => s ≠ comparison.lo
  | .BETWEEN => comparison.lo ≤ s ∧ s ≤ comparison.hi

/-- What the tokens behind `WHERE f` say.  A range that ends the query behind
its `AND` has the empty string for its upper end. -/
inductive Written : List Bytes → StringComparison → Prop where
  | compare {sign lit : Bytes} {cmp : MatrixCmp} {rest : List Bytes}
      (signed : cmpOf (up sign) = some cmp) :
      Written (sign :: lit :: rest) ⟨cmp, unquote lit, []⟩
  | range {between lo also hi : Bytes} {rest : List Bytes}
      (spelled : Spells between "BETWEEN") (joined : Spells also "AND") :
      Written (between :: lo :: also :: hi :: rest)
        ⟨.BETWEEN, unquote lo, unquote hi⟩
  | openRange {between lo also : Bytes}
      (spelled : Spells between "BETWEEN") (joined : Spells also "AND") :
      Written [between, lo, also] ⟨.BETWEEN, unquote lo, []⟩

/-- A range that ends below the least of some strings and does not start
above it. -/
def EndsBelow (comparison : StringComparison) (data : List Bytes) : Prop :=
  comparison.cmp = .BETWEEN ∧ ∃ least ∈ data, (∀ s ∈ data, least ≤ s) ∧
    comparison.lo ≤ least ∧ comparison.hi < least

end StringComparison

/-! ## Comparisons of codes -/

section
variable {dict : List Bytes} (ranked : Ranked dict) {s : Bytes}
  (member : s ∈ dict)

include ranked member

/-- The least string has the least code. -/
theorem codeOf_eq_zero : codeOf dict s = 0 ↔ ∀ t ∈ dict, s ≤ t := by
  constructor
  · intro zero t other
    apply Std.not_lt.mp
    intro below
    have first := (ranked.codeOf_lt_lowerBound other s).mpr below
    have none : ¬ codeOf dict s < lowerBound dict s := by
      rw [ranked.codeOf_lt_lowerBound member]
      exact Std.lt_irrefl
    rw [zero] at none
    exact none (UInt32.lt_of_le_of_lt (UInt32.zero_le) first)
  · intro least
    cases dict with
    | nil => cases member
    | cons first rest =>
        have above : first ≤ s := by
          rcases List.mem_cons.mp member with rfl | later
          · exact Std.le_refl _
          · exact Std.le_of_lt
              ((List.pairwise_cons.mp ranked.sorted).1 s later)
        obtain rfl := Std.le_antisymm above (least first (by simp))
        rw [codeOf, List.idxOf_cons_self]
        rfl

/-- Every comparison but a range compares the codes as it does the strings. -/
theorem stringPredicate_selects {κ : Type} {catalog : Catalog κ} {f : UInt64}
    {x : Bytes} (encodes : catalog.stringEncode f x =
      if x ∈ dict then codeOf dict x else UInt32.ofNat dict.length)
    {cmp : MatrixCmp} (single : cmp ≠ .BETWEEN) (upper : UInt32) :
    matrixPredMatch (codeOf dict s)
        { cmp := (stringPredicate catalog f dict cmp x).1
          a := (stringPredicate catalog f dict cmp x).2
          b := upper } = true ↔ StringComparison.Holds ⟨cmp, x, []⟩ s := by
  have same : codeOf dict s = catalog.stringEncode f x ↔ s = x := by
    rw [encodes]
    split
    · rename_i known
      exact ranked.codeOf_inj member known
    · rename_i unknown
      constructor
      · intro last
        exact absurd last (ranked.codeOf_ne_length member)
      · rintro rfl
        exact absurd member unknown
  have low := ranked.codeOf_lt_lowerBound member x
  have high := ranked.codeOf_lt_upperBound member x
  cases cmp with
  | GT =>
      have above : upperBound dict x ≤ codeOf dict s ↔ x < s := by
        rw [← UInt32.not_lt, high, Std.not_le]
      simpa [matrixPredMatch, predMatch, stringPredicate,
        StringComparison.Holds] using above
  | GE =>
      have above : lowerBound dict x ≤ codeOf dict s ↔ x ≤ s := by
        rw [← UInt32.not_lt, low, Std.not_lt]
      simpa [matrixPredMatch, predMatch, stringPredicate,
        StringComparison.Holds] using above
  | LT => exact decide_eq_true_iff.trans low
  | LE => exact decide_eq_true_iff.trans high
  | EQ =>
      simpa [matrixPredMatch, predMatch, stringPredicate,
        StringComparison.Holds] using same
  | NE =>
      simpa [matrixPredMatch, predMatch, stringPredicate,
        StringComparison.Holds] using not_congr same
  | BETWEEN => exact absurd rfl single

/-- A range of codes is a range of strings, or it is the first code. -/
theorem range_selects (lo hi : Bytes) :
    matrixPredMatch (codeOf dict s)
        { cmp := .BETWEEN, a := lowerBound dict lo, b := lastCode dict hi } =
          true ↔
      lo ≤ s ∧ if upperBound dict hi = 0 then ∀ t ∈ dict, s ≤ t
        else s ≤ hi := by
  have low : lowerBound dict lo ≤ codeOf dict s ↔ lo ≤ s := by
    rw [← UInt32.not_lt, ranked.codeOf_lt_lowerBound member, Std.not_lt]
  have high := ranked.codeOf_lt_upperBound member hi
  have least := codeOf_eq_zero ranked member
  unfold lastCode
  split
  · simp [matrixPredMatch, predMatch, low, least]
  · rename_i positive
    have last : codeOf dict s ≤ upperBound dict hi - 1 ↔ s ≤ hi := by
      have one : 1 ≤ (upperBound dict hi).toNat := by
        apply Nat.one_le_iff_ne_zero.mpr
        intro zero
        exact positive (UInt32.toNat_inj.mp zero)
      have fits : 1 ≤ upperBound dict hi := UInt32.le_iff_toNat_le.mpr one
      rw [← high, UInt32.le_iff_toNat_le, UInt32.lt_iff_toNat_lt,
        UInt32.toNat_sub_of_le _ _ fits]
      change _ ≤ _ - 1 ↔ _
      omega
    simp [matrixPredMatch, predMatch, low, last]

end

theorem upperBound_eq_zero {dict : List Bytes} (ranked : Ranked dict)
    {hi : Bytes} (zero : upperBound dict hi = 0) {s : Bytes}
    (member : s ∈ dict) : hi < s := by
  apply Std.not_le.mp
  rw [← ranked.codeOf_lt_upperBound member, zero]
  exact UInt32.not_lt_zero

/-! ## The rows of a column of strings -/

namespace MatrixQuery

/-- The column that a filter looks at. -/
def filtered (q : MatrixQuery) : UInt64 :=
  if q.filterCol = 0 then q.valueCol else q.filterCol

/-- Zero stands for the value column. -/
theorem filtered_where (q : MatrixQuery) {f : UInt64} (known : f ≠ 0) :
    ({ q with
        filterCol := if f = q.valueCol then 0 else f
        hasFilter := true } : MatrixQuery).filtered = f := by
  unfold filtered
  by_cases own : f = q.valueCol
  · simp [own]
  · simp [own, known]

end MatrixQuery

namespace Catalog

variable {κ : Type}

/-- The code in a row of a column. -/
def codeAt (catalog : Catalog κ) (id : UInt64) (row : Nat) : Option UInt32 :=
  (catalog.contents id).map fun bytes => u32At bytes row

/-- A column holds some strings, as codes beside a dictionary. -/
structure HoldsStrings (catalog : Catalog κ) (id : UInt64)
    (data : List Bytes) : Prop where
  ranked : Ranked (sortedDict data)
  coded : catalog.stringDicts.lookup id = some (sortedDict data)
  encoded : catalog.stringEncoders.lookup id =
    some (encoderOf (sortedDict data))
  codes : ∀ row s, data[row]? = some s →
    catalog.codeAt id row = some (codeOf (sortedDict data) s)

theorem loadStringColumnDict_holds [CostArith κ]
    {before loaded catalog : Catalog κ} (wellFormed : before.WellFormed)
    {id : UInt64} {data : List Bytes}
    (stored : before.loadStringColumnDict id data = some loaded)
    (coded : catalog.Coded)
    (sameCodes : catalog.contents id = loaded.contents id)
    (sameDict : catalog.stringDicts.lookup id =
      loaded.stringDicts.lookup id) : catalog.HoldsStrings id data := by
  obtain ⟨countable, middle, first, rfl⟩ := loadStringColumnDict_eq stored
  have loads := loadScanColumn_loads wellFormed first
  have dict : catalog.stringDicts.lookup id = some (sortedDict data) := by
    rw [sameDict, AList.lookup_insert]
  refine ⟨ranked_sortedDict countable, dict, ?_, ?_⟩
  · rw [coded.encoders, dict]
    rfl
  · intro row s found
    have held : catalog.contents id = some _ :=
      sameCodes.trans loads.contents_self
    have member : s ∈ sortedDict data :=
      mem_sortedDict.mpr (List.mem_of_getElem? found)
    have place := take_drop_flatMap (data.map fun value =>
      ((encoderOf (sortedDict data)).lookup value).getD 0)
      (fun code _ => length_u32Bytes code)
      (j := row) (by rw [List.getElem?_map, found]; rfl)
    have code : ((encoderOf (sortedDict data)).lookup s).getD 0 =
        codeOf (sortedDict data) s := by
      rw [lookup_encoderOf, if_pos member]
      rfl
    rw [codeAt, held, Option.map_some, u32At, place, u32OfBytes_u32Bytes]
    exact congrArg some code

namespace HoldsStrings

variable {catalog : Catalog κ} {id : UInt64} {data : List Bytes}
  (holds : catalog.HoldsStrings id data)

include holds

theorem decode {row : Nat} {s : Bytes} (found : data[row]? = some s) :
    (catalog.codeAt id row).map (catalog.stringDecode id) = some s := by
  have member : s ∈ sortedDict data :=
    mem_sortedDict.mpr (List.mem_of_getElem? found)
  rw [holds.codes row s found, Option.map_some, stringDecode, holds.coded]
  exact congrArg some (holds.ranked.decode member)

theorem encode (x : Bytes) :
    catalog.stringEncode id x =
      if x ∈ sortedDict data then codeOf (sortedDict data) x
      else UInt32.ofNat (sortedDict data).length := by
  rw [stringEncode, holds.encoded]
  simp only [lookup_encoderOf,
    length_keys_encoderOf (nodup_of_sorted holds.ranked.sorted)]
  split <;> rfl

end HoldsStrings

end Catalog

/-! ## The parsed predicate -/

section
variable {κ : Type} {catalog : Catalog κ}

theorem TailClause.frame {d : Dialect} {aggs : Bytes} {vid : UInt64}
    {tokens : List Bytes} {finish : MatrixQuery → MatrixQuery}
    (tail : TailClause catalog d aggs vid tokens finish) (q : MatrixQuery) :
    (finish q).hasFilter = q.hasFilter ∧ (finish q).pred = q.pred ∧
      (finish q).filtered = q.filtered := by
  cases tail with
  | scalar => exact ⟨rfl, rfl, rfl⟩
  | grouped => exact ⟨rfl, rfl, rfl⟩

theorem FilterPredicate.filtered {strtod : Bytes → StrtodResult} {d : Dialect}
    {f : UInt64} {tokens rest : List Bytes} {set : MatrixQuery → MatrixQuery}
    (predicate : FilterPredicate strtod catalog d f tokens set rest)
    (q : MatrixQuery) :
    (set q).hasFilter = q.hasFilter ∧ (set q).filtered = q.filtered := by
  cases predicate with
  | @number _ _ _ bound => cases bound <;> exact ⟨rfl, rfl⟩
  | @numbers _ _ _ _ lower upper =>
      cases lower <;> cases upper <;> exact ⟨rfl, rfl⟩
  | string => exact ⟨rfl, rfl⟩
  | strings => exact ⟨rfl, rfl⟩
  | openStrings => exact ⟨rfl, rfl⟩

/-- The filter of a parsed query is the one written behind `WHERE f`. -/
theorem parseQuery_filter (wellFormed : catalog.WellFormed)
    {strtod : Bytes → StrtodResult} {sql : Bytes} {q : MatrixQuery}
    {after : Catalog κ}
    (parsed : catalog.parseQuery strtod sql = some (.OK, q, after))
    (filters : q.hasFilter = true) :
    ∃ set rest base, FilterPredicate strtod catalog implemented q.filtered
        ((matrixparseTokenize sql).drop 7) set rest ∧
      q.pred = (set base).pred := by
  obtain ⟨select, filter, tail⟩ :=
    (parseQuery_ok_iff wellFormed).mp ⟨after, parsed⟩
  rename_i behind rest aggs selected set finish
  obtain ⟨same, pred, column⟩ := tail.frame (set selected)
  rw [same] at filters
  rw [pred, column]
  generalize matrixparseTokenize sql = tokens at select
  cases select with
  | select =>
      cases filter with
      | absent => cases filters
      | filter _ known' _ predicate =>
          refine ⟨_, rest, _, ?_, rfl⟩
          rw [(predicate.filtered _).2, MatrixQuery.filtered_where _ known']
          exact predicate

/-- A range of codes is the range of strings, but for one that ends below
every string: it selects the least. -/
theorem range_selects_strings {data : List Bytes}
    (ranked : Ranked (sortedDict data)) (lo hi : Bytes) {s : Bytes}
    (member : s ∈ data) :
    matrixPredMatch (codeOf (sortedDict data) s)
        { cmp := .BETWEEN, a := lowerBound (sortedDict data) lo
          b := lastCode (sortedDict data) hi } = true ↔
      StringComparison.Holds ⟨.BETWEEN, lo, hi⟩ s ∨
        StringComparison.EndsBelow ⟨.BETWEEN, lo, hi⟩ data ∧
          ∀ t ∈ data, s ≤ t := by
  have known := mem_sortedDict.mpr member
  rw [range_selects ranked known]
  simp only [mem_sortedDict]
  split
  · rename_i zero
    have above := upperBound_eq_zero ranked zero known
    constructor
    · rintro ⟨low, least⟩
      exact .inr ⟨⟨rfl, s, member, least, low, above⟩, least⟩
    · rintro (⟨_, below⟩ | ⟨⟨_, least, _, lowest, low, _⟩, first⟩)
      · exact absurd above (Std.not_lt.mpr below)
      · exact ⟨Std.le_trans low (lowest s member), first⟩
  · rename_i positive
    constructor
    · rintro ⟨low, high⟩
      exact .inl ⟨low, high⟩
    · rintro (⟨low, high⟩ | ⟨⟨_, least, among, first, _, below⟩, _⟩)
      · exact ⟨low, high⟩
      · have other := mem_sortedDict.mpr among
        have zero : codeOf (sortedDict data) least = 0 :=
          (codeOf_eq_zero ranked other).mpr fun t later =>
            first t (mem_sortedDict.mp later)
        have early := ranked.codeOf_lt_upperBound other hi
        rw [zero] at early
        have reached := early.mp (UInt32.pos_iff_ne_zero.mpr positive)
        exact absurd below (Std.not_lt.mpr reached)

/-- What a filter over a column of strings selects. -/
theorem FilterPredicate.selects {strtod : Bytes → StrtodResult} {id : UInt64}
    {data : List Bytes} (holds : catalog.HoldsStrings id data)
    {tokens rest : List Bytes} {set : MatrixQuery → MatrixQuery}
    (predicate : FilterPredicate strtod catalog implemented id tokens set
      rest) (base : MatrixQuery) :
    ∃ comparison, StringComparison.Written tokens comparison ∧
      ∀ s ∈ data, (matrixPredMatch (codeOf (sortedDict data) s)
          (set base).pred = true ↔
        comparison.Holds s ∨
          comparison.EndsBelow data ∧ ∀ t ∈ data, s ≤ t) := by
  cases predicate with
  | number plain => exact absurd holds.coded (not_coded_of_plain plain)
  | numbers plain => exact absurd holds.coded (not_coded_of_plain plain)
  | @string dict sign lit cmp _ coded signed =>
      cases holds.coded.symm.trans coded
      refine ⟨_, .compare signed, ?_⟩
      intro s member
      have single := (cmpOf_some signed).2
      have never : ¬ StringComparison.EndsBelow ⟨cmp, unquote lit, []⟩ data :=
        fun below => single below.1
      have selects := stringPredicate_selects holds.ranked
        (mem_sortedDict.mpr member) (holds.encode (unquote lit)) single
        base.upper
      refine selects.trans ?_
      simp [never]
  | strings coded spelled joined =>
      cases holds.coded.symm.trans coded
      refine ⟨_, .range spelled joined, ?_⟩
      intro s member
      exact range_selects_strings holds.ranked _ _ member
  | openStrings _ coded spelled joined =>
      cases holds.coded.symm.trans coded
      refine ⟨_, .openRange spelled joined, ?_⟩
      intro s member
      exact range_selects_strings holds.ranked _ _ member

namespace Catalog

/-- The rows that the predicate of a query selects. -/
def selects (catalog : Catalog κ) (q : MatrixQuery) (row : Nat) : Bool :=
  (catalog.codeAt q.filtered row).any fun code => matrixPredMatch code q.pred

/-- A filter over strings selects what it says, and the least string too if it
ends below every string. -/
theorem selects_iff (wellFormed : catalog.WellFormed) {id : UInt64}
    {data : List Bytes} (holds : catalog.HoldsStrings id data)
    {strtod : Bytes → StrtodResult} {sql : Bytes} {q : MatrixQuery}
    {after : Catalog κ}
    (parsed : catalog.parseQuery strtod sql = some (.OK, q, after))
    (filters : q.hasFilter = true) (own : q.filtered = id) :
    ∃ comparison, StringComparison.Written ((matrixparseTokenize sql).drop 7)
        comparison ∧
      ∀ row s, data[row]? = some s →
        (catalog.selects q row = true ↔ comparison.Holds s ∨
          comparison.EndsBelow data ∧ ∀ t ∈ data, s ≤ t) := by
  obtain ⟨set, rest, base, predicate, pred⟩ :=
    parseQuery_filter wellFormed parsed filters
  rw [own] at predicate
  obtain ⟨comparison, written, selects⟩ := predicate.selects holds base
  refine ⟨comparison, written, ?_⟩
  intro row s found
  rw [← selects s (List.mem_of_getElem? found), Catalog.selects, own,
    holds.codes row s found, pred]
  rfl

/-- A column of strings decodes to what was loaded, and a `WHERE` on it
selects the rows whose strings compare as the literals say, if and only if it
is not a range that ends below every string. -/
theorem string_predicates_iff [CostArith κ] {before loaded : Catalog κ}
    (fresh : before.WellFormed) {id : UInt64} {data : List Bytes}
    (stored : before.loadStringColumnDict id data = some loaded)
    (wellFormed : catalog.WellFormed) (coded : catalog.Coded)
    (sameCodes : catalog.contents id = loaded.contents id)
    (sameDict : catalog.stringDicts.lookup id =
      loaded.stringDicts.lookup id) :
    (∀ row s, data[row]? = some s →
      (catalog.codeAt id row).map (catalog.stringDecode id) = some s) ∧
    ∀ strtod sql q after,
      catalog.parseQuery strtod sql = some (.OK, q, after) →
      q.hasFilter = true → q.filtered = id →
      ∃ comparison, StringComparison.Written
          ((matrixparseTokenize sql).drop 7) comparison ∧
        ((∀ row s, data[row]? = some s →
            (catalog.selects q row = true ↔ comparison.Holds s)) ↔
          ¬ comparison.EndsBelow data) := by
  have holds := loadStringColumnDict_holds fresh stored coded sameCodes
    sameDict
  constructor
  · intro row s found
    exact holds.decode found
  · intro strtod sql q after parsed filters own
    obtain ⟨comparison, written, rows⟩ :=
      selects_iff wellFormed holds parsed filters own
    refine ⟨comparison, written, ?_⟩
    constructor
    · rintro agree ⟨range, least, member, first, low, below⟩
      obtain ⟨row, found⟩ := List.mem_iff_getElem?.mp member
      have selected := (rows row least found).mpr
        (.inr ⟨⟨range, least, member, first, low, below⟩, first⟩)
      have within := (agree row least found).mp selected
      rw [StringComparison.Holds, range] at within
      exact absurd below (Std.not_lt.mpr within.2)
    · intro regular row s found
      rw [rows row s found]
      simp [regular]

end Catalog

end

/-! ## The board again -/

/-- Nothing was appended to the board since its strings were loaded. -/
theorem board_loaded {catalog : Catalog ℚ} (made : board = some catalog) :
    ∃ loaded : Catalog ℚ, (Catalog.fresh 1024).loadStringColumnDict 1
        [ascii "b", ascii "m"] = some loaded ∧
      catalog.Coded ∧ catalog.contents 1 = loaded.contents 1 ∧
      catalog.stringDicts.lookup 1 = loaded.stringDicts.lookup 1 := by
  obtain ⟨loaded, strings, named⟩ := Option.bind_eq_some_iff.mp made
  have coded := Catalog.lasting_coded.loadStringColumnDict
    (Catalog.coded_fresh 1024) strings
  rw [Catalog.nameColumn_eq named]
  exact ⟨loaded, strings, coded.same ⟨rfl, rfl, rfl⟩, rfl, rfl⟩

/-- A filter on the board, from its tokens. -/
theorem exists_filtered {sql : Bytes} {part : List Bytes}
    (tokens : matrixparseTokenize sql = [ascii "SELECT", ascii "COUNT",
      ascii "(", ascii "s", ascii ")", ascii "WHERE", ascii "s"] ++ part)
    (taken : ∀ catalog : Catalog ℚ,
      catalog.stringDicts.lookup 1 = some [ascii "b", ascii "m"] →
      ∃ set, FilterPredicate (fun _ => ⟨0, 0, false⟩) catalog implemented 1
        part set []) :
    ∃ catalog q after, board = some catalog ∧
      catalog.parseQuery (fun _ => ⟨0, 0, false⟩) sql =
        some (.OK, q, after) ∧ q.hasFilter = true ∧ q.filtered = 1 := by
  obtain ⟨catalog, made, named, coded, typed⟩ := exists_board
  obtain ⟨set, predicate⟩ := taken catalog coded
  have known : catalog.columnId (ascii "s") ≠ 0 := by
    rw [named]
    decide
  have select : SelectClause catalog (matrixparseTokenize sql)
      (ascii "COUNT")
      { valueCol := catalog.columnId (ascii "s"), agg := AGG_COUNT }
      (ascii "WHERE" :: ascii "s" :: part) := by
    rw [tokens]
    exact .select (by decide) rfl known
  have filter : WhereClause (fun _ => ⟨0, 0, false⟩) catalog implemented
      (catalog.columnId (ascii "s")) (ascii "WHERE" :: ascii "s" :: part)
      (fun q => set { q with
        filterCol :=
          if catalog.columnId (ascii "s") = catalog.columnId (ascii "s") then 0
          else catalog.columnId (ascii "s")
        hasFilter := true }) [] := by
    refine .filter (by decide) known ?_ ?_
    · intro other
      exact absurd rfl other
    · rw [named]
      exact predicate
  obtain ⟨after, parsed⟩ := (parseQuery_ok_iff (wellFormed_board made)).mpr
    (.query select filter .scalar)
  refine ⟨catalog, _, after, made, parsed, (predicate.filtered _).1, ?_⟩
  refine (predicate.filtered _).2.trans ?_
  rw [if_pos rfl]
  exact named

theorem string_predicates_board :
    ∃ catalog q after, board = some catalog ∧
      catalog.parseQuery (fun _ => ⟨0, 0, false⟩)
        (ascii "SELECT COUNT(s) WHERE s > a") = some (.OK, q, after) ∧
      ∀ row s, [ascii "b", ascii "m"][row]? = some s →
        (catalog.selects q row = true ↔ ascii "a" < s) := by
  have tokens : matrixparseTokenize (ascii "SELECT COUNT(s) WHERE s > a") =
      [ascii "SELECT", ascii "COUNT", ascii "(", ascii "s", ascii ")",
        ascii "WHERE", ascii "s"] ++ [ascii ">", ascii "a"] := by
    decide +kernel
  obtain ⟨catalog, q, after, made, parsed, filters, own⟩ :=
    exists_filtered tokens (by
      intro catalog coded
      have signed : cmpOf (up (ascii ">")) = some .GT := by decide
      refine ⟨_, .string coded signed ?_⟩
      decide)
  obtain ⟨loaded, stored, coded, sameCodes, sameDict⟩ := board_loaded made
  obtain ⟨_, predicates⟩ := Catalog.string_predicates_iff
    (Catalog.wellFormed_fresh 1024) stored (wellFormed_board made) coded
    sameCodes sameDict
  obtain ⟨comparison, written, exactly⟩ := predicates _ _ q after parsed
    filters own
  refine ⟨catalog, q, after, made, parsed, ?_⟩
  rw [tokens] at written
  cases written with
  | compare signed =>
      cases signed
      exact exactly.mpr fun below => by cases below.1

/-- A range that ends below `b` selects `b`. -/
theorem range_below_selects :
    ∃ catalog q after comparison, board = some catalog ∧
      catalog.WellFormed ∧ catalog.parseQuery (fun _ => ⟨0, 0, false⟩)
        (ascii "SELECT COUNT(s) WHERE s BETWEEN a AND a") =
          some (.OK, q, after) ∧
      StringComparison.Written
        [ascii "BETWEEN", ascii "a", ascii "AND", ascii "a"] comparison ∧
      catalog.selects q 0 = true ∧ ¬ comparison.Holds (ascii "b") := by
  have tokens : matrixparseTokenize
      (ascii "SELECT COUNT(s) WHERE s BETWEEN a AND a") =
      [ascii "SELECT", ascii "COUNT", ascii "(", ascii "s", ascii ")",
        ascii "WHERE", ascii "s"] ++
      [ascii "BETWEEN", ascii "a", ascii "AND", ascii "a"] := by
    decide +kernel
  obtain ⟨catalog, q, after, made, parsed, filters, own⟩ :=
    exists_filtered tokens (by
      intro catalog coded
      exact ⟨_, .strings coded (by decide) (by decide)⟩)
  obtain ⟨loaded, stored, coded, sameCodes, sameDict⟩ := board_loaded made
  have holds := Catalog.loadStringColumnDict_holds
    (Catalog.wellFormed_fresh 1024) stored coded sameCodes sameDict
  obtain ⟨comparison, written, rows⟩ :=
    Catalog.selects_iff (wellFormed_board made) holds parsed filters own
  rw [tokens] at written
  refine ⟨catalog, q, after, comparison, made, wellFormed_board made, parsed,
    written, ?_, ?_⟩
  · refine (rows 0 (ascii "b") rfl).mpr (.inr ?_)
    cases written with
    | compare signed => cases signed
    | range =>
        refine ⟨⟨rfl, ascii "b", ?_, ?_, ?_, ?_⟩, ?_⟩
        all_goals decide
  · cases written with
    | compare signed => cases signed
    | range =>
        rintro ⟨_, high⟩
        exact absurd high (by decide)

end MatrixDB
