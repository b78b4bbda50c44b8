import MatrixDB.Cli.FreshIds
import MatrixDB.Cli.PrintedValues
import MatrixDB.Query.Returns

/-!
# When the shell returns

A line aborts where an engine call does or where an index is out of range.
For every kind of line the inputs on which this happens are described by the
columns alone, so that a session returns exactly if none of its lines is one of
them.
-/

namespace MatrixDB

open Lib CostArith Catalog

theorem isSome_mapM_iff {A B : Type} {f : A → Option B} {xs : List A} :
    (xs.mapM f).isSome ↔ ∀ x ∈ xs, (f x).isSome := by
  induction xs with
  | nil => simp
  | cons x xs induction =>
      rw [List.forall_mem_cons, ← induction, List.mapM_cons]
      cases f x with
      | none => simp
      | some y =>
          cases xs.mapM f with
          | none => simp
          | some ys => simp

theorem isSome_bind_some {A B : Type} (made : Option A) (f : A → B) :
    (made.bind fun value => some (f value)).isSome = made.isSome := by
  cases made with
  | none => rfl
  | some value => rfl

variable {κ : Type} {strtod : Bytes → StrtodResult}
  {printDouble : UInt64 → Bytes} {catalog before : Catalog κ}

namespace Catalog

/-! ## Joins -/

/-- A column has some rows. -/
def Reaches (catalog : Catalog κ) (id : UInt64) (rows : List Nat) : Prop :=
  ∀ column, catalog.view id = some column → ∀ row ∈ rows, row < column.rows

/-- The columns of an aggregate have the rows of all pairs. -/
structure AggregateReaches (catalog : Catalog κ) (left right : ColumnView)
    (j : JoinAggregate) : Prop where
  measure : catalog.Reaches j.lcol ((keyPairs left right).map Prod.fst)
  dimension : j.gcol ≠ 0 →
    catalog.Reaches j.gcol ((keyPairs left right).map Prod.snd)

/-- The columns of a projection have the rows of the pairs that are shown. -/
structure ProjectionReaches (catalog : Catalog κ) (left right : ColumnView)
    (select : Bytes) (tail : List Bytes) : Prop where
  columns : ∀ limit lcol rcol, joinLimit tail = some limit →
    select.contains ','.toUInt8 = true →
    catalog.columnId (cliTrim (select.takeWhile fun c => c != ','.toUInt8)) =
      lcol →
    catalog.columnId (cliTrim ((select.dropWhile fun c =>
      c != ','.toUInt8).drop 1)) = rcol → lcol ≠ 0 → rcol ≠ 0 →
    let shown := (keyPairs left right).take
      (if limit = 0 then 100 else limit.toNat)
    catalog.Reaches lcol (shown.map Prod.fst) ∧
      catalog.Reaches rcol (shown.map Prod.snd)

/-- A join of two keys: only `uint32` keys can be counted, and nothing may be
gathered beyond a column. -/
structure JoinReturns (strtod : Bytes → StrtodResult) (catalog : Catalog κ)
    (left right : ColumnView) (select : Bytes) (tail : List Bytes) :
    Prop where
  counted : countsPairs select = true → left.type = .U32
  aggregated : countsPairs select = false →
    select.contains '('.toUInt8 = true → ∀ j,
    catalog.joinAggregate strtod select tail = .ok j →
      catalog.AggregateReaches left right j
  projected : countsPairs select = false →
    select.contains '('.toUInt8 = false →
    catalog.ProjectionReaches left right select tail

theorem Keeps.reaches (keeps : Keeps catalog before) (id : UInt64)
    (rows : List Nat) :
    before.Reaches id rows ↔ catalog.Reaches id rows := by
  unfold Reaches
  rw [keeps.view]

theorem isSome_gather_iff (wellFormed : catalog.WellFormed) {id : UInt64}
    {column : ColumnView} (seen : catalog.view id = some column)
    {pairs : List (Nat × Nat)} {side : Nat × Nat → Nat}
    (fits : ∀ pair ∈ pairs, side pair < 2 ^ 64) :
    (catalog.gather id
      (pairs.map fun pair => UInt64.ofNat (side pair))).isSome ↔
      catalog.Reaches id (pairs.map side) := by
  constructor
  · intro returns column' seen' row member
    cases seen.symm.trans seen'
    obtain ⟨pair, inside, rfl⟩ := List.mem_map.mp member
    by_contra beyond
    have past : column.rows ≤ (UInt64.ofNat (side pair)).toNat := by
      rw [UInt64.toNat_ofNat_of_lt' (fits pair inside)]
      exact Nat.not_lt.mp beyond
    rw [gather_none wellFormed seen (List.mem_map_of_mem
      (f := fun pair => UInt64.ofNat (side pair)) inside) past] at returns
    cases returns
  · intro reaches
    obtain ⟨after, _, _, ran⟩ := gather_side wellFormed seen
      fun pair inside => reaches column seen _ (List.mem_map_of_mem inside)
    rw [ran]
    rfl

section
variable (wellFormed : catalog.WellFormed) {lk rk : Bytes}
  {left right : ColumnView} (keys : JoinKeys catalog lk rk left right)
  {select : Bytes} {tail : List Bytes} {mode : OutMode}

include wellFormed keys

theorem isSome_runJoinAggregate_iff {j : JoinAggregate} {measure : ColumnView}
    (measured : catalog.view j.lcol = some measure)
    (grouped : j.gcol ≠ 0 →
      ∃ dimension, catalog.view j.gcol = some dimension) :
    (catalog.runJoinAggregate printDouble left.type (catalog.columnId lk)
      (catalog.columnId rk) j).isSome ↔
      catalog.AggregateReaches left right j := by
  have fits := keyPairs_fit wellFormed keys
  obtain ⟨joined, keeps, _, pairs⟩ := joinPairs_eq wellFormed keys
  have first := isSome_gather_iff keeps.wellFormed
    ((keeps.view _).trans measured) fun pair member => (fits pair member).1
  rw [keeps.reaches] at first
  unfold runJoinAggregate
  rw [pairs]
  simp only [Option.bind_eq_bind, Option.bind_some, List.map_map,
    Function.comp_def, rowNumbers]
  cases gathered : joined.gather j.lcol ((keyPairs left right).map
      fun pair => UInt64.ofNat pair.1) with
  | none =>
      rw [gathered] at first
      refine iff_of_false Bool.false_ne_true ?_
      intro reaches
      exact absurd (first.mpr reaches.measure) Bool.false_ne_true
  | some result =>
      obtain ⟨lv, middle⟩ := result
      rw [gathered] at first
      have measureReaches := first.mp rfl
      obtain ⟨keeps', _⟩ := gather_side_ran keeps.wellFormed
        ((keeps.view _).trans measured)
        (fun pair member => (fits pair member).1) gathered
      have whole := keeps.trans keeps'
      dsimp only [Option.bind_some]
      split
      · rename_i scalar
        refine iff_of_true rfl ⟨measureReaches, ?_⟩
        intro nonzero
        exact absurd scalar nonzero
      · rename_i nonzero
        obtain ⟨dimension, seen⟩ := grouped nonzero
        have second := isSome_gather_iff whole.wellFormed
          ((whole.view _).trans seen) fun pair member => (fits pair member).2
        rw [whole.reaches] at second
        rw [isSome_bind_some, second]
        constructor
        · intro reaches
          exact ⟨measureReaches, fun _ => reaches⟩
        · intro reaches
          exact reaches.dimension nonzero

theorem isSome_runJoinProjection_iff (named : catalog.Named) :
    (catalog.runJoinProjection printDouble mode left.type
      (catalog.columnId lk) (catalog.columnId rk) select tail).isSome ↔
      catalog.ProjectionReaches left right select tail := by
  have fits := keyPairs_fit wellFormed keys
  obtain ⟨joined, keeps, _, pairs⟩ := joinPairs_eq wellFormed keys
  unfold runJoinProjection
  cases limited : joinLimit tail with
  | none =>
      refine iff_of_true rfl ⟨?_⟩
      intro limit lcol rcol some'
      cases limited.symm.trans some'
  | some limit =>
      dsimp only
      by_cases comma : select.contains ','.toUInt8 = true
      · rw [comma, Bool.not_true, if_neg Bool.false_ne_true]
        split
        · rename_i unknown
          refine iff_of_true rfl ⟨?_⟩
          rintro _ _ _ _ _ rfl rfl left' right'
          exact absurd unknown (not_or.mpr ⟨left', right'⟩)
        rename_i known
        rw [not_or] at known
        obtain ⟨l, lSeen⟩ := view_of_known wellFormed named known.1
        obtain ⟨r, rSeen⟩ := view_of_known wellFormed named known.2
        generalize lId : catalog.columnId (cliTrim (select.takeWhile
          fun c => c != ','.toUInt8)) = lcol at *
        generalize rId : catalog.columnId (cliTrim ((select.dropWhile
          fun c => c != ','.toUInt8).drop 1)) = rcol at *
        have shown : catalog.ProjectionReaches left right select tail ↔
            let shown := (keyPairs left right).take
              (if limit = 0 then 100 else limit.toNat)
            catalog.Reaches lcol (shown.map Prod.fst) ∧
              catalog.Reaches rcol (shown.map Prod.snd) := by
          constructor
          · intro reaches
            exact reaches.columns limit lcol rcol limited comma lId rId
              known.1 known.2
          · intro reaches
            refine ⟨?_⟩
            intro _ _ _ same _ same' same'' _ _
            cases limited.symm.trans same
            rw [lId] at same'
            rw [rId] at same''
            rw [← same', ← same'']
            exact reaches
        rw [shown, pairs]
        generalize (if limit = 0 then 100 else limit.toNat) = cap
        have fits' : ∀ pair ∈ (keyPairs left right).take cap,
            pair.1 < 2 ^ 64 ∧ pair.2 < 2 ^ 64 :=
          fun pair member => fits pair (List.mem_of_mem_take member)
        have first := isSome_gather_iff keeps.wellFormed
          ((keeps.view _).trans lSeen)
          fun pair member => (fits' pair member).1
        rw [keeps.reaches] at first
        simp only [Option.bind_eq_bind, Option.bind_some, ← List.map_take,
          List.map_map, Function.comp_def, rowNumbers]
        cases gathered : joined.gather lcol (((keyPairs left right).take
            cap).map fun pair => UInt64.ofNat pair.1) with
        | none =>
            rw [gathered] at first
            refine iff_of_false Bool.false_ne_true ?_
            intro reaches
            exact absurd (first.mpr reaches.1) Bool.false_ne_true
        | some result =>
            obtain ⟨lv, middle⟩ := result
            rw [gathered] at first
            obtain ⟨keeps', _⟩ := gather_side_ran keeps.wellFormed
              ((keeps.view _).trans lSeen)
              (fun pair member => (fits' pair member).1) gathered
            have whole := keeps.trans keeps'
            have second := isSome_gather_iff whole.wellFormed
              ((whole.view _).trans rSeen)
              fun pair member => (fits' pair member).2
            rw [whole.reaches] at second
            rw [Option.bind_some, isSome_bind_some, second]
            exact (and_iff_right (first.mp rfl)).symm
      · have bare : select.contains ','.toUInt8 = false :=
          Bool.not_eq_true _ |>.mp comma
        rw [bare, Bool.not_false, if_pos rfl]
        refine iff_of_true rfl ⟨?_⟩
        intro _ _ _ _ comma
        cases bare.symm.trans comma

theorem isSome_joinBranch_iff (named : catalog.Named) :
    (catalog.joinBranch printDouble strtod mode left.type
      (catalog.columnId lk) (catalog.columnId rk) select tail).isSome ↔
      catalog.JoinReturns strtod left right select tail := by
  unfold joinBranch
  by_cases counts : countsPairs select = true
  · have only : catalog.JoinReturns strtod left right select tail ↔
        left.type = .U32 := by
      constructor
      · intro returns
        exact returns.counted counts
      · intro u32
        refine ⟨fun _ => u32, ?_, ?_⟩
        · intro other
          cases counts.symm.trans other
        · intro other
          cases counts.symm.trans other
    rw [if_pos counts, only, Option.isSome_map]
    cases typed : left.type with
    | U32 =>
        obtain ⟨after, _, _, ran⟩ := hashJoinCount_u32 wellFormed keys typed
        rw [ran]
        exact iff_of_true rfl rfl
    | I64 =>
        rw [hashJoinCount_i64 keys typed]
        exact iff_of_false Bool.false_ne_true nofun
    | F64 => exact absurd typed keys.integer
  have uncounted : countsPairs select = false := Bool.not_eq_true _ |>.mp counts
  rw [if_neg counts]
  by_cases bracket : select.contains '('.toUInt8 = true
  · have only : catalog.JoinReturns strtod left right select tail ↔ ∀ j,
        catalog.joinAggregate strtod select tail = .ok j →
          catalog.AggregateReaches left right j := by
      constructor
      · intro returns
        exact returns.aggregated uncounted bracket
      · intro reaches
        refine ⟨fun counted => absurd counted counts, fun _ _ => reaches, ?_⟩
        intro _ bare
        cases bracket.symm.trans bare
    rw [if_pos bracket, only]
    cases read : catalog.joinAggregate strtod select tail with
    | error message =>
        refine iff_of_true rfl ?_
        intro j same
        cases same
    | ok j =>
        obtain ⟨⟨measure, measured⟩, grouped⟩ :=
          joinAggregate_known wellFormed named read
        simp only [Except.ok.injEq, forall_eq']
        exact isSome_runJoinAggregate_iff wellFormed keys measured grouped
  · have bare : select.contains '('.toUInt8 = false :=
      Bool.not_eq_true _ |>.mp bracket
    have only : catalog.JoinReturns strtod left right select tail ↔
        catalog.ProjectionReaches left right select tail := by
      constructor
      · intro returns
        exact returns.projected uncounted bare
      · intro reaches
        refine ⟨fun counted => absurd counted counts, ?_, fun _ _ => reaches⟩
        intro _ bracketed
        exact absurd bracketed bracket
    rw [if_neg bracket, only]
    exact isSome_runJoinProjection_iff wellFormed keys named

end

theorem isSome_runJoin_iff (wellFormed : catalog.WellFormed)
    (named : catalog.Named) {line : Bytes} {mode : OutMode} :
    (catalog.runJoin printDouble strtod mode line).isSome ↔
      ∀ join left right, joinLine (splitWs line) = some join →
        JoinKeys catalog join.lk join.rk left right →
        catalog.JoinReturns strtod left right join.select join.tail := by
  cases read : joinLine (splitWs line) with
  | none =>
      refine iff_of_true ?_ (fun _ _ _ => nofun)
      unfold runJoin
      rw [read]
      rfl
  | some join =>
      obtain ⟨select, lk, rk, tail⟩ := join
      simp only [Option.some.injEq]
      by_cases keyed : ∃ left right, JoinKeys catalog lk rk left right
      · obtain ⟨left, right, keys⟩ := keyed
        rw [runJoin_read wellFormed keys printDouble strtod mode read,
          isSome_joinBranch_iff wellFormed keys named]
        constructor
        · rintro returns _ left' right' rfl keys'
          cases keys.leftSeen.symm.trans keys'.leftSeen
          cases keys.rightSeen.symm.trans keys'.rightSeen
          exact returns
        · intro returns
          exact returns _ left right rfl keys
      · refine iff_of_true ?_ ?_
        · unfold runJoin
          rw [read]
          dsimp only
          split
          · rfl
          rename_i known
          split
          · rfl
          rename_i plain
          split
          · rfl
          rename_i typed
          obtain ⟨left, right, keys, _⟩ :=
            joinKeys_of_guards wellFormed named known plain typed
          exact absurd ⟨left, right, keys⟩ keyed
        · rintro _ left right rfl keys
          exact absurd ⟨left, right, keys⟩ keyed

/-! ## Several aggregates -/

section
variable [SoundCost κ]

/-- The terms of a line are run until one is refused. -/
def TermsReturn (strtod : Bytes → StrtodResult) (catalog : Catalog κ)
    (rest : Bytes) : List Bytes → Prop
  | [] => True
  | term :: terms =>
      catalog.WithinMasks strtod (ascii "SELECT " ++ term ++ rest) ∧
        ((∃ q out, catalog.Parses strtod (ascii "SELECT " ++ term ++ rest) q ∧
          catalog.Serves q out) → TermsReturn strtod catalog rest terms)

/-- The queries of terms that are all answered. -/
def TermQueries (strtod : Bytes → StrtodResult) (catalog : Catalog κ)
    (rest : Bytes) (terms : List Bytes) (qs : List MatrixQuery) : Prop :=
  List.Forall₂ (fun term q =>
    catalog.Parses strtod (ascii "SELECT " ++ term ++ rest) q ∧
      ∃ out, catalog.Serves q out) terms qs

/-- How many values a query has. -/
def valueCount (q : MatrixQuery) : Nat :=
  if q.grouped then q.numGroups.toNat else 1

/-- Every aggregate has a value for each group of the first. -/
def FillsRows (qs : List MatrixQuery) : Prop :=
  ∀ first others, qs = first :: others → first.grouped = true →
    ∀ q ∈ others, valueCount first ≤ valueCount q

/-- A line of several aggregates. -/
structure MultiReturns (strtod : Bytes → StrtodResult) (catalog : Catalog κ)
    (line : Bytes) : Prop where
  terms : catalog.TermsReturn strtod (cutLine line).2
    (lineTerms (cutLine line).1)
  rows : ∀ qs, catalog.TermQueries strtod (cutLine line).2
    (lineTerms (cutLine line).1) qs → FillsRows qs

omit [SoundCost κ] in
theorem Serves.length {q : MatrixQuery} {out : List UInt64}
    (serves : catalog.Serves q out) : out.length = valueCount q := by
  obtain ⟨value, _, answered⟩ := serves
  exact answered_length answered

section
variable (wellFormed : catalog.WellFormed) (keeps : Keeps catalog before)

include wellFormed keeps

omit [SoundCost κ] in
theorem parses_of_keeps {sql : Bytes} {q : MatrixQuery} :
    before.Parses strtod sql q ↔ catalog.Parses strtod sql q := by
  unfold Parses
  rw [parseQuery_ok_iff keeps.wellFormed, parseQuery_ok_iff wellFormed]
  exact ⟨keeps.statement, (keeps.back wellFormed).statement⟩

omit wellFormed in
theorem executed_iff_serves {ns : UInt64} {q : MatrixQuery}
    {out : List UInt64} :
    (∃ after, before.executeQuery ns q = some (.OK, out, after)) ↔
      catalog.Serves q out := by
  rw [executeQuery_ok keeps.wellFormed]
  simp only [keeps.view, keeps.maxQueryGroups]
  rfl

omit [SoundCost κ] in
/-- A term that is parsed in some later state. -/
theorem withinMasks_iff {sql : Bytes} {status : MatrixQueryStatus}
    {q : MatrixQuery} {after : Catalog κ}
    (parsed : before.parseQuery strtod sql = some (status, q, after)) :
    catalog.WithinMasks strtod sql ↔
      (status = .OK → ¬ catalog.ReadsPastMask q) := by
  rw [← forall_parses_iff (P := fun q => ¬ catalog.ReadsPastMask q) parsed]
  constructor
  · intro within q' parses
    exact within q' ((parses_of_keeps wellFormed keeps).mp parses)
  · intro within q' parses
    exact within q' ((parses_of_keeps wellFormed keeps).mpr parses)

theorem isSome_runTerms_iff (named : catalog.Named) {ns : Nat → UInt64}
    {rest : Bytes} (terms : List Bytes) (columns : List AggregateColumn) :
    (runTerms strtod ns rest terms columns before).isSome ↔
      catalog.TermsReturn strtod rest terms := by
  induction terms generalizing before columns with
  | nil => exact iff_of_true rfl trivial
  | cons term terms induction =>
      obtain ⟨status, q, parsed, parses, _⟩ := parseQuery_returns
        keeps.wellFormed (keeps.named wellFormed named) strtod
        (ascii "SELECT " ++ term ++ rest)
      have keeps' := keeps.trans (keeps_parseQuery keeps.wellFormed parses)
      have within := withinMasks_iff wellFormed keeps parses
      rw [runTerms, parses, TermsReturn, within]
      simp only [Option.bind_eq_bind, Option.bind_some]
      by_cases accepted : status = .OK
      · subst accepted
        have only : ∀ q', catalog.Parses strtod
            (ascii "SELECT " ++ term ++ rest) q' → q' = q := by
          intro q' parses'
          obtain ⟨_, again⟩ := (parses_of_keeps wellFormed keeps).mpr parses'
          cases parses.symm.trans again
          rfl
        have own := (parses_of_keeps wellFormed keeps).mp ⟨parsed, parses⟩
        rw [if_pos rfl]
        have returns := isSome_executeQuery_iff keeps'.wellFormed
          (ns columns.length) q
        rw [keeps'.readsPastMask wellFormed] at returns
        cases ran : parsed.executeQuery (ns columns.length) q with
        | none =>
            rw [ran] at returns
            refine iff_of_false Bool.false_ne_true ?_
            rintro ⟨safe, _⟩
            exact absurd (returns.mpr (safe rfl)) Bool.false_ne_true
        | some answer =>
            obtain ⟨status, out, after⟩ := answer
            rw [ran] at returns
            have safe := returns.mp rfl
            have served : ∀ out', catalog.Serves q out' ↔
                status = .OK ∧ out' = out := by
              intro out'
              rw [← executed_iff_serves keeps', ran]
              simp [eq_comm]
            simp only [Option.bind_some]
            split
            · rename_i answered
              have keeps'' := keeps'.trans
                (keeps_executeQuery keeps'.wellFormed ran)
              rw [induction keeps'']
              constructor
              · intro later
                exact ⟨fun _ => safe, fun _ => later⟩
              · intro both
                exact both.2 ⟨q, out, own, (served out).mpr ⟨answered, rfl⟩⟩
            · rename_i refused
              refine iff_of_true rfl ⟨fun _ => safe, ?_⟩
              rintro ⟨q', out', parses', serves⟩
              cases only q' parses'
              exact absurd ((served out').mp serves).1 refused
      · rw [if_neg accepted]
        refine iff_of_true rfl ⟨fun ok => absurd ok accepted, ?_⟩
        rintro ⟨q', out', parses', _⟩
        obtain ⟨_, again⟩ := (parses_of_keeps wellFormed keeps).mpr parses'
        cases parses.symm.trans again
        exact absurd rfl accepted

/-- Terms that are answered are columns of the line. -/
theorem runTerms_of_queries {ns : Nat → UInt64} {rest : Bytes}
    {terms : List Bytes} {qs : List MatrixQuery}
    (queries : catalog.TermQueries strtod rest terms qs)
    (columns : List AggregateColumn) :
    ∃ later after, runTerms strtod ns rest terms columns before =
        some (some (columns ++ later), after) ∧
      later.map AggregateColumn.query = qs := by
  induction queries generalizing before columns with
  | nil => exact ⟨[], before, by rw [runTerms, List.append_nil], rfl⟩
  | @cons term q terms qs answered _ induction =>
      obtain ⟨parses, out, serves⟩ := answered
      obtain ⟨parsed, parses⟩ := (parses_of_keeps wellFormed keeps).mpr parses
      have keeps' := keeps.trans (keeps_parseQuery keeps.wellFormed parses)
      obtain ⟨after, ran⟩ :=
        (@executed_iff_serves _ _ _ _ keeps' (ns columns.length) _ _).mpr
          serves
      have keeps'' := keeps'.trans (keeps_executeQuery keeps'.wellFormed ran)
      obtain ⟨later, last, rest', same⟩ := induction keeps''
        (columns ++ [{ query := q, result := out, label := term }])
      refine ⟨{ query := q, result := out, label := term } :: later, last,
        ?_, ?_⟩
      · rw [runTerms, parses]
        simp only [Option.bind_eq_bind, Option.bind_some, if_true, ran]
        rw [rest', List.append_assoc]
        rfl
      · rw [List.map_cons, same]

end

section
variable (wellFormed : catalog.WellFormed) (named : catalog.Named)
  {ns : Nat → UInt64} {line : Bytes} {mode : OutMode}

omit [SoundCost κ] in
/-- A row is printed where every column has a value. -/
theorem isSome_multiRow_iff {key : UInt64} {columns : List AggregateColumn}
    {g : Nat} :
    (catalog.multiRow printDouble key columns g).isSome ↔
      ∀ column ∈ columns, g < column.result.length := by
  unfold multiRow
  rw [Option.isSome_map, isSome_mapM_iff]
  simp only [Option.isSome_map, isSome_getElem?]

omit [SoundCost κ] in
/-- All rows of the first column. -/
theorem isSome_multiRows_iff {key : UInt64} {first : AggregateColumn}
    {others : List AggregateColumn} :
    ((List.range first.result.length).mapM (catalog.multiRow printDouble key
      (first :: others))).isSome ↔
      ∀ column ∈ others, first.result.length ≤ column.result.length := by
  simp only [isSome_mapM_iff, isSome_multiRow_iff, List.mem_range,
    List.forall_mem_cons]
  constructor
  · intro all column member
    by_contra short
    exact Nat.lt_irrefl _
      ((all column.result.length (Nat.not_le.mp short)).2 column member)
  · intro long g inside
    exact ⟨inside, fun column member =>
      Nat.lt_of_lt_of_le inside (long column member)⟩

include wellFormed named

/-- The terms return, and a line that they are all columns of fills its
rows. -/
theorem isSome_runMulti_iff :
    (catalog.runMulti strtod printDouble ns line).isSome ↔
      catalog.MultiReturns strtod line := by
  have refl := Keeps.refl wellFormed
  have terms : (runTerms strtod ns (cutLine line).2
      (lineTerms (cutLine line).1) [] catalog).isSome ↔ _ :=
    isSome_runTerms_iff wellFormed refl named _ []
  have queries : ∀ qs, catalog.TermQueries strtod (cutLine line).2
      (lineTerms (cutLine line).1) qs → ∃ columns after,
        runTerms strtod ns (cutLine line).2 (lineTerms (cutLine line).1) []
          catalog = some (some columns, after) ∧
        columns.map AggregateColumn.query = qs := by
    intro qs answered
    exact runTerms_of_queries wellFormed refl answered []
  unfold runMulti
  dsimp only
  cases ran : runTerms strtod ns (cutLine line).2
      (lineTerms (cutLine line).1) [] catalog with
  | none =>
      rw [ran] at terms
      refine iff_of_false Bool.false_ne_true ?_
      intro returns
      exact absurd (terms.mpr returns.terms) Bool.false_ne_true
  | some result =>
      obtain ⟨columns, after⟩ := result
      rw [ran] at terms queries
      have returns := terms.mp rfl
      have only : catalog.MultiReturns strtod line ↔ ∀ found,
          columns = some found → FillsRows
            (found.map AggregateColumn.query) := by
        constructor
        · rintro multi found rfl
          have lineColumns := lineColumns_of_runTerms wellFormed ran
          apply multi.rows
          rw [TermQueries, ← lineColumns.labels, List.forall₂_map_left_iff,
            List.forall₂_map_right_iff, List.forall₂_same]
          intro column member
          obtain ⟨c, listed⟩ := List.mem_iff_getElem?.mp member
          refine ⟨?_, column.result, lineColumns.serves c column listed⟩
          obtain ⟨term, after, labelled, parses⟩ :=
            lineColumns.terms c column listed
          rw [← lineColumns.labels, List.getElem?_map, listed] at labelled
          cases labelled
          exact ⟨after, parses⟩
        · intro fills
          refine ⟨returns, ?_⟩
          intro qs answered
          obtain ⟨found, _, same, rfl⟩ := queries qs answered
          cases same
          exact fills found rfl
      rw [only]
      have widths : ∀ found, columns = some found → ∀ column ∈ found,
          column.result.length = valueCount column.query := by
        rintro found rfl column member
        obtain ⟨c, listed⟩ := List.mem_iff_getElem?.mp member
        exact ((lineColumns_of_runTerms wellFormed ran).serves c column
          listed).length
      simp only [Option.bind_eq_bind, Option.bind_some]
      split
      · exact iff_of_true rfl fun _ => nofun
      · refine iff_of_true rfl ?_
        rintro found same first others fields
        cases same
        cases fields
      · rename_i first others
        have here := widths _ rfl first List.mem_cons_self
        have fills : (∀ found, some (first :: others) = some found → FillsRows
            (found.map AggregateColumn.query)) ↔
            (first.query.grouped = true → ∀ column ∈ others,
              first.result.length ≤ column.result.length) := by
          constructor
          · intro all grouped column member
            rw [here, widths _ rfl column (List.mem_cons_of_mem _ member)]
            exact all _ rfl _ _ rfl grouped _ (List.mem_map_of_mem member)
          · intro long found same head rest fields grouped q member
            cases same
            cases fields
            obtain ⟨column, inside, rfl⟩ := List.mem_map.mp member
            have there := long grouped column inside
            rwa [here, widths _ rfl column (List.mem_cons_of_mem _ inside)]
              at there
        rw [fills]
        split
        · rename_i grouped
          rw [isSome_bind_some, isSome_multiRows_iff]
          exact ⟨fun long _ => long, fun long => long grouped⟩
        · rename_i plain
          exact iff_of_true rfl fun grouped => absurd grouped plain

/-! ## The other lines -/

/-- What is run behind the aggregate has groups. -/
theorem isSome_runSingle_iff :
    (catalog.runSingle strtod printDouble ns line).isSome ↔
      catalog.WithinMasks strtod line := by
  obtain ⟨status, q, parsed, parses, _⟩ :=
    parseQuery_returns wellFormed named strtod line
  have keeps := keeps_parseQuery wellFormed parses
  have returns := isSome_executeQuery_iff keeps.wellFormed (ns 0) q
  rw [withinMasks_iff wellFormed (.refl wellFormed) parses]
  rw [keeps.readsPastMask wellFormed] at returns
  unfold runSingle
  rw [parses]
  simp only [Option.bind_eq_bind, Option.bind_some]
  split
  · rename_i accepted
    have only : (status = .OK → ¬ catalog.ReadsPastMask q) ↔
        ¬ catalog.ReadsPastMask q := ⟨fun safe => safe accepted, fun safe _ =>
          safe⟩
    rw [only, ← returns]
    cases ran : parsed.executeQuery (ns 0) q with
    | none => rfl
    | some answer =>
        obtain ⟨status', out, after⟩ := answer
        have keeps' := keeps.trans (keeps_executeQuery keeps.wellFormed ran)
        refine iff_of_true ?_ rfl
        simp only [Option.bind_some]
        split
        · split
          · rw [isSome_bind_some]
            exact isSome_topQuery keeps'.wellFormed
              (keeps'.named wellFormed named) (ns 1) line
          · split
            · rfl
            · rfl
        · rfl
  · rename_i refused
    exact iff_of_true rfl fun accepted => absurd accepted refused

theorem isSome_runAverage_iff :
    (catalog.runAverage strtod printDouble ns line).isSome ↔
      ∀ text ∈ averageText line, catalog.WithinMasks strtod text := by
  rw [← isSome_avgQuery_iff wellFormed named ns, runAverage]
  cases catalog.avgQuery strtod ns line with
  | none => rfl
  | some result =>
      refine iff_of_true ?_ rfl
      simp only [Option.bind_eq_bind, Option.bind_some]
      split
      · rfl
      · rfl
      · rfl

theorem isSome_runHaving (cut : Nat) :
    (catalog.runHaving strtod printDouble ns line cut).isSome := by
  obtain ⟨status, q, parsed, parses, _⟩ :=
    parseQuery_returns wellFormed named strtod (line.take cut)
  have keeps := keeps_parseQuery wellFormed parses
  rw [runHaving, parses]
  simp only [Option.bind_eq_bind, Option.bind_some]
  split
  · rw [isSome_bind_some]
    exact isSome_havingQuery keeps.wellFormed (keeps.named wellFormed named)
      (ns 0) line
  · rfl

theorem isSome_runDistinct : (catalog.runDistinct line).isSome := by
  obtain ⟨⟨n, after⟩, ran⟩ := Option.isSome_iff_exists.mp
    (isSome_distinctQuery wellFormed named line)
  rw [runDistinct, ran]
  cases n with
  | none => rfl
  | some n => rfl

omit [SoundCost κ] in
theorem isSome_runProjection :
    (catalog.runProjection strtod printDouble mode line).isSome := by
  have returns : (catalog.projectQuery strtod line).isSome := by
    obtain ⟨out, after, ran, _⟩ := projectQuery_sound wellFormed named line
    rw [ran]
    rfl
  unfold runProjection
  dsimp only
  split
  · split
    · rfl
    · rw [Option.bind_eq_bind, isSome_bind_some]
      exact returns
  · rfl

/-- The lines on which no query aborts. -/
structure SqlReturns (strtod : Bytes → StrtodResult) (catalog : Catalog κ)
    (line : Bytes) : Prop where
  join : routeOf line = .join → ∀ join left right,
    joinLine (splitWs line) = some join →
    JoinKeys catalog join.lk join.rk left right →
    catalog.JoinReturns strtod left right join.select join.tail
  average : routeOf line = .average →
    ∀ text ∈ averageText line, catalog.WithinMasks strtod text
  multi : routeOf line = .multi → catalog.MultiReturns strtod line
  single : routeOf line = .single → catalog.WithinMasks strtod line

theorem isSome_runSql_iff :
    (catalog.runSql strtod printDouble ns mode line).isSome ↔
      catalog.SqlReturns strtod line := by
  unfold runSql
  cases route : routeOf line with
  | join =>
      rw [isSome_runJoin_iff wellFormed named]
      constructor
      · intro returns
        exact ⟨fun _ => returns, by simp [route], by simp [route],
          by simp [route]⟩
      · intro returns
        exact returns.join route
  | distinct =>
      exact iff_of_true (isSome_runDistinct wellFormed named)
        ⟨by simp [route], by simp [route], by simp [route], by simp [route]⟩
  | having cut =>
      exact iff_of_true (isSome_runHaving wellFormed named cut)
        ⟨by simp [route], by simp [route], by simp [route], by simp [route]⟩
  | average =>
      rw [isSome_runAverage_iff wellFormed named]
      constructor
      · intro returns
        exact ⟨by simp [route], fun _ => returns, by simp [route],
          by simp [route]⟩
      · intro returns
        exact returns.average route
  | multi =>
      rw [isSome_runMulti_iff wellFormed named]
      constructor
      · intro returns
        exact ⟨by simp [route], by simp [route], fun _ => returns,
          by simp [route]⟩
      · intro returns
        exact returns.multi route
  | single =>
      rw [isSome_runSingle_iff wellFormed named]
      constructor
      · intro returns
        exact ⟨by simp [route], by simp [route], by simp [route],
          fun _ => returns⟩
      · intro returns
        exact returns.single route
  | projection =>
      exact iff_of_true (isSome_runProjection wellFormed named)
        ⟨by simp [route], by simp [route], by simp [route], by simp [route]⟩

end

end

end Catalog

end MatrixDB
