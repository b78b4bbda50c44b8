import MatrixDB.Catalog.Dictionaries
import MatrixDB.Catalog.Gathers
import MatrixDB.Query.Grammar

/-!
# Parsing over the same data

Parsing moves columns between the tiers and keeps what is in them, and the
grammar reads nothing else.
-/

namespace MatrixDB

open Lib CostArith Catalog

variable {κ : Type} {strtod : Bytes → StrtodResult} {catalog after : Catalog κ}

/-! ## What the parser keeps -/

theorem keeps_parseGroup (wellFormed : catalog.WellFormed) {q : MatrixQuery}
    {tokens : List Bytes}
    {result : Except MatrixQueryStatus (MatrixQuery × List Bytes)}
    (ran : catalog.parseGroup q tokens = some (result, after)) :
    Keeps catalog after := by
  unfold Catalog.parseGroup at ran
  split at ran
  · split at ran
    · cases ran
      exact .refl wellFormed
    · obtain ⟨⟨groups, back⟩, derived, same⟩ :=
        Option.map_eq_some_iff.mp ran
      cases same
      obtain ⟨_, _, _, keeps⟩ := deriveNumGroupsU32_held wellFormed derived
      exact keeps
  · cases ran
    exact .refl wellFormed

theorem keeps_parseQueryImpl (wellFormed : catalog.WellFormed) {sql : Bytes}
    {result : Except MatrixQueryStatus MatrixQuery}
    (ran : catalog.parseQueryImpl strtod sql = some (result, after)) :
    Keeps catalog after := by
  unfold Catalog.parseQueryImpl at ran
  split at ran
  · cases ran
    exact .refl wellFormed
  · obtain ⟨⟨grouped, back⟩, group, same⟩ := Option.map_eq_some_iff.mp ran
    cases same
    exact keeps_parseGroup wellFormed group

theorem keeps_parseQuery (wellFormed : catalog.WellFormed) {sql : Bytes}
    {status : MatrixQueryStatus} {q : MatrixQuery}
    (ran : catalog.parseQuery strtod sql = some (status, q, after)) :
    Keeps catalog after := by
  obtain ⟨⟨result, back⟩, parsed, same⟩ := Option.map_eq_some_iff.mp ran
  cases result with
  | error status =>
      cases same
      exact keeps_parseQueryImpl wellFormed parsed
  | ok q =>
      cases same
      exact keeps_parseQueryImpl wellFormed parsed

/-! ## The parser always returns -/

theorem Catalog.Named.held (named : catalog.Named)
    (wellFormed : catalog.WellFormed) {name : Bytes}
    (known : catalog.columnId name ≠ 0) :
    ∃ bytes, catalog.contents (catalog.columnId name) = some bytes := by
  unfold Catalog.columnId at known ⊢
  cases stored : catalog.nameToId.lookup name with
  | none => simp [stored] at known
  | some id =>
      have registered := named name id stored
      rw [isSome_lookup_eq wellFormed] at registered
      exact Option.isSome_iff_exists.mp registered

theorem parseGroup_returns (wellFormed : catalog.WellFormed)
    (named : catalog.Named) (q : MatrixQuery) (tokens : List Bytes) :
    ∃ result after, catalog.parseGroup q tokens = some (result, after) ∧
      Untouched catalog after := by
  unfold Catalog.parseGroup
  split
  · rename_i seen
    split
    · exact ⟨_, catalog, rfl, .refl catalog⟩
    · rename_i kid behind keyed
      have held : ∃ bytes, catalog.contents kid = some bytes := by
        cases parseKey_sound keyed seen with
        | named _ _ known => exact named.held wellFormed known
        | nameless _ _ _ known => exact named.held wellFormed known
      obtain ⟨bytes, held⟩ := held
      obtain ⟨after, keeps, derived⟩ := deriveNumGroupsU32_eq wellFormed held
      have same := samePlaces_withLoan _ _ derived
      rw [derived]
      exact ⟨_, after, rfl, keeps.contents, same.columns⟩
  · exact ⟨_, catalog, rfl, .refl catalog⟩

theorem parseQuery_returns (wellFormed : catalog.WellFormed)
    (named : catalog.Named) (strtod : Bytes → StrtodResult) (sql : Bytes) :
    ∃ status q after, catalog.parseQuery strtod sql = some (status, q, after) ∧
      Untouched catalog after := by
  have returns : ∃ result after, catalog.parseQueryImpl strtod sql =
      some (result, after) ∧ Untouched catalog after := by
    unfold Catalog.parseQueryImpl
    split
    · exact ⟨_, catalog, rfl, .refl catalog⟩
    · rename_i aggs q tokens _
      obtain ⟨result, after, ran, untouched⟩ :=
        parseGroup_returns wellFormed named q tokens
      rw [ran]
      exact ⟨_, after, rfl, untouched⟩
  obtain ⟨result, after, ran, untouched⟩ := returns
  rw [Catalog.parseQuery, ran]
  cases result with
  | error status => exact ⟨status, {}, after, rfl, untouched⟩
  | ok q => exact ⟨.OK, q, after, rfl, untouched⟩

/-! ## What the grammar reads -/

namespace Catalog.Keeps

theorem columnId (keeps : Keeps catalog after) (name : Bytes) :
    after.columnId name = catalog.columnId name := by
  rw [Catalog.columnId, keeps.nameToId]
  rfl

theorem stringEncode (keeps : Keeps catalog after) (id : UInt64)
    (value : Bytes) :
    after.stringEncode id value = catalog.stringEncode id value := by
  unfold Catalog.stringEncode
  rw [keeps.stringEncoders]

theorem stringPredicate (keeps : Keeps catalog after) (f : UInt64)
    (dict : List Bytes) (cmp : MatrixCmp) (x : Bytes) :
    MatrixDB.stringPredicate after f dict cmp x =
      MatrixDB.stringPredicate catalog f dict cmp x := by
  cases cmp <;> simp only [MatrixDB.stringPredicate, keeps.stringEncode]

theorem selectClause (keeps : Keeps catalog after)
    {tokens rest : List Bytes} {aggs : Bytes} {q : MatrixQuery}
    (select : SelectClause after tokens aggs q rest) :
    SelectClause catalog tokens aggs q rest := by
  obtain ⟨spelled, aggregate, known⟩ := select
  rw [keeps.columnId] at known ⊢
  exact .select spelled aggregate known

theorem filterPredicate (keeps : Keeps catalog after) {d : Dialect}
    {f : UInt64} {tokens rest : List Bytes} {set : MatrixQuery → MatrixQuery}
    (predicate : FilterPredicate strtod after d f tokens set rest) :
    FilterPredicate strtod catalog d f tokens set rest := by
  cases predicate with
  | number plain signed literal =>
      rw [keeps.stringDicts] at plain
      rw [keeps.columnType] at literal
      exact .number plain signed literal
  | numbers plain spelled least joined most =>
      rw [keeps.stringDicts] at plain
      rw [keeps.columnType] at least most
      exact .numbers plain spelled least joined most
  | string coded signed literal =>
      rw [keeps.stringDicts] at coded
      simp only [keeps.stringPredicate]
      exact .string coded signed literal
  | strings coded spelled joined =>
      rw [keeps.stringDicts] at coded
      exact .strings coded spelled joined
  | openStrings allowed coded spelled joined =>
      rw [keeps.stringDicts] at coded
      exact .openStrings allowed coded spelled joined

theorem whereClause (keeps : Keeps catalog after) {d : Dialect}
    {vid : UInt64} {tokens rest : List Bytes}
    {set : MatrixQuery → MatrixQuery}
    (clause : WhereClause strtod after d vid tokens set rest) :
    WhereClause strtod catalog d vid tokens set rest := by
  cases clause with
  | absent => exact .absent
  | filter spelled known typed predicate =>
      simp only [keeps.columnId, keeps.columnType] at known typed predicate ⊢
      exact .filter spelled known typed (keeps.filterPredicate predicate)

theorem groupKey (keeps : Keeps catalog after) {d : Dialect}
    {tokens rest : List Bytes} {kid : UInt64}
    (key : GroupKey after d tokens kid rest) :
    GroupKey catalog d tokens kid rest := by
  cases key with
  | named spelled spelled' known u32 =>
      simp only [keeps.columnId, keeps.columnType] at known u32 ⊢
      exact .named spelled spelled' known u32
  | nameless allowed spelled spelled' known u32 =>
      simp only [keeps.columnId, keeps.columnType] at known u32 ⊢
      exact .nameless allowed spelled spelled' known u32

theorem ranking (keeps : Keeps catalog after) {aggs : Bytes} {vid : UInt64}
    {tokens : List Bytes} {limit : UInt64}
    (ranking : Ranking after aggs vid tokens limit) :
    Ranking catalog aggs vid tokens limit := by
  cases ranking with
  | absent => exact .absent
  | top spelled spelled' sorts descending limited number positive =>
      rw [keeps.columnId] at sorts
      exact .top spelled spelled' sorts descending limited number positive

theorem tailClause (keeps : Keeps catalog after) {d : Dialect}
    {aggs : Bytes} {vid : UInt64} {tokens : List Bytes}
    {finish : MatrixQuery → MatrixQuery}
    (tail : TailClause after d aggs vid tokens finish) :
    TailClause catalog d aggs vid tokens finish := by
  cases tail with
  | scalar => exact .scalar
  | grouped key held ranking =>
      rw [keeps.contents] at held
      exact .grouped (keeps.groupKey key) held (keeps.ranking ranking)

theorem statement (keeps : Keeps catalog after) {d : Dialect}
    {tokens : List Bytes} {q : MatrixQuery}
    (statement : Statement strtod after d tokens q) :
    Statement strtod catalog d tokens q := by
  obtain ⟨select, filter, tail⟩ := statement
  exact .query (keeps.selectClause select) (keeps.whereClause filter)
    (keeps.tailClause tail)

end Catalog.Keeps

end MatrixDB
