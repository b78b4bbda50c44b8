import MatrixDB.Catalog.Joins
import MatrixDB.Catalog.Transparency

/-!
# Gathered rows

A gather reads one column at the rows it is given.  A projection without a
filter gathers a column's first rows, and one with a filter those at which a
`uint32` column of the same length has a value that the filter lets through.
-/

namespace MatrixDB

open Lib

namespace ColumnView

/-- The value at a row, as a result holds it. -/
def word (column : ColumnView) (row : Nat) : UInt64 :=
  match column.type with
  | .U32 => (u32At column.bytes row).toUInt64
  | .I64 => u64At column.bytes row
  | .F64 => u64At column.bytes row

/-- The values at the rows that a filter column lets through, all of them when
there is none, in the order of the rows. -/
def selected (column : ColumnView)
    (filter : Option (ColumnView × MatrixPredicate)) : List UInt64 :=
  ((List.range column.rows).filter fun row =>
    match filter with
    | none => true
    | some (f, pred) => matrixPredMatch (u32At f.bytes row) pred).map
      column.word

end ColumnView

variable {κ : Type}

namespace Catalog

theorem gatherRows_eq {column : ColumnView} {rows : List UInt64}
    (inside : ∀ r ∈ rows, r.toNat < column.rows) :
    gatherRows column.type column.bytes column.rows rows =
      some (rows.map fun r => column.word r.toNat) := by
  induction rows with
  | nil => rfl
  | cons r rows induction =>
      have here := inside r List.mem_cons_self
      have later := induction fun other member =>
        inside other (.tail _ member)
      unfold gatherRows
      rw [if_pos here, later, Option.map_some, List.map_cons]
      unfold ColumnView.word
      cases column.type <;> rfl

theorem gatherRows_outside {column : ColumnView} {rows : List UInt64}
    {r : UInt64} (member : r ∈ rows) (outside : column.rows ≤ r.toNat) :
    gatherRows column.type column.bytes column.rows rows = none := by
  induction rows with
  | nil => cases member
  | cons first rows induction =>
      unfold gatherRows
      split
      · rename_i inside
        rcases List.mem_cons.mp member with rfl | later
        · omega
        · rw [induction later]
          rfl
      · rfl

/-- Rows of a column, counted in 64 bits. -/
theorem map_word_ofNat {column : ColumnView} (fits : column.rows < 2 ^ 64)
    {rows : List Nat} (inside : ∀ r ∈ rows, r < column.rows) :
    ((rows.map UInt64.ofNat).map fun r => column.word r.toNat) =
      rows.map column.word := by
  rw [List.map_map]
  apply List.map_congr_left
  intro row member
  have small : row < 2 ^ 64 := Nat.lt_trans (inside row member) fits
  rw [Function.comp_apply, UInt64.toNat_ofNat_of_lt' small]

theorem inside_ofNat {column : ColumnView} (fits : column.rows < 2 ^ 64)
    {rows : List Nat} (inside : ∀ r ∈ rows, r < column.rows) :
    ∀ r ∈ rows.map UInt64.ofNat, r.toNat < column.rows := by
  intro r member
  obtain ⟨row, found, rfl⟩ := List.mem_map.mp member
  have small := inside row found
  rw [UInt64.toNat_ofNat_of_lt' (Nat.lt_trans small fits)]
  exact small

theorem limited_map {A B : Type} (limit : UInt64) (f : A → B)
    (rows : List A) : limited limit (rows.map f) = (limited limit rows).map f := by
  unfold limited
  split
  · rfl
  · exact List.map_take.symm

theorem mem_of_limited {A : Type} {limit : UInt64} {rows : List A} {row : A}
    (member : row ∈ limited limit rows) : row ∈ rows := by
  unfold limited at member
  split at member
  · exact member
  · exact List.mem_of_mem_take member

variable {catalog : Catalog κ}

theorem Untouched.trans {before middle after : Catalog κ}
    (first : Untouched before middle) (second : Untouched middle after) :
    Untouched before after where
  contents id := (second.contents id).trans (first.contents id)
  place id := (second.place id).trans (first.place id)

theorem Untouched.refl (catalog : Catalog κ) : Untouched catalog catalog :=
  ⟨fun _ => rfl, fun _ => rfl⟩

section
variable (wellFormed : catalog.WellFormed) {id : UInt64}
  {column : ColumnView} (seen : catalog.view id = some column)

include wellFormed seen in
/-- A reduction of one column that stays where it is. -/
theorem withLoan_eq {A : Type} {reduce : Catalog κ → Option A}
    {result : Option A} (reduced : ∀ lent, Lends lent id column →
      lent.columnType id = column.type → reduce lent = result) :
    ∃ after, Keeps catalog after ∧
      (result.isSome → Untouched catalog after) ∧
      catalog.withLoan id reduce = result.map fun r => (r, after) := by
  obtain ⟨home, lent, bytes, back, borrowed, host, gave, read, keeps,
    sofar⟩ := loan_eq wellFormed (registered_of_view seen)
  cases (contents_of_view seen).symm.trans read
  have shows : Lent catalog [id] lent := by
    refine ⟨keeps, ?_⟩
    intro other member
    cases List.mem_singleton.mp member
    exact host.trans read.symm
  have typed : lent.columnType id = column.type := by
    rw [keeps.columnType]
    exact columnType_of_view seen
  have ran := reduced lent (shows.lends List.mem_cons_self seen) typed
  have took : catalog.withLoan id reduce = result.map fun r => (r, back) := by
    simp only [withLoan, borrowed, ran, gave, Option.bind_eq_bind,
      Option.bind_some]
    cases result <;> rfl
  refine ⟨back, sofar, ?_, took⟩
  intro returned
  obtain ⟨r, rfl⟩ := Option.isSome_iff_exists.mp returned
  exact ⟨sofar.contents, (samePlaces_withLoan _ _ took).columns⟩

include wellFormed seen in
theorem gather_eq {rows : List UInt64}
    (inside : ∀ r ∈ rows, r.toNat < column.rows) :
    ∃ after, Keeps catalog after ∧ Untouched catalog after ∧
      catalog.gather id rows =
        some (rows.map fun r => column.word r.toNat, after) := by
  have has : catalog.catalogHas id := by
    rw [catalogHas_view wellFormed, seen]
    rfl
  rw [gather, if_pos has]
  have reduced : ∀ lent : Catalog κ, Lends lent id column →
      lent.columnType id = column.type →
      (do
        let bytes ← lent.hostBytes id
        let ty := lent.columnType id
        gatherRows ty bytes (lent.sizeBytes id / ty.width) rows) =
      some (rows.map fun r => column.word r.toNat) := by
    intro lent lends typed
    simp only [lends.hostBytes, lends.sizeBytes, typed, Option.bind_eq_bind,
      Option.bind_some]
    exact gatherRows_eq inside
  obtain ⟨after, keeps, untouched, ran⟩ :=
    withLoan_eq wellFormed seen reduced
  exact ⟨after, keeps, untouched rfl, ran⟩

include wellFormed seen in
/-- A row past the end of the column is fatal. -/
theorem gather_none {rows : List UInt64} {r : UInt64} (member : r ∈ rows)
    (outside : column.rows ≤ r.toNat) : catalog.gather id rows = none := by
  have has : catalog.catalogHas id := by
    rw [catalogHas_view wellFormed, seen]
    rfl
  rw [gather, if_pos has]
  have reduced : ∀ lent : Catalog κ, Lends lent id column →
      lent.columnType id = column.type →
      (do
        let bytes ← lent.hostBytes id
        let ty := lent.columnType id
        gatherRows ty bytes (lent.sizeBytes id / ty.width) rows) = none := by
    intro lent lends typed
    simp only [lends.hostBytes, lends.sizeBytes, typed, Option.bind_eq_bind,
      Option.bind_some]
    exact gatherRows_outside member outside
  obtain ⟨after, _, _, ran⟩ := withLoan_eq wellFormed seen reduced
  exact ran

include wellFormed seen in
theorem matchingRows_eq (u32 : column.type = .U32) (pred : MatrixPredicate)
    (limit : UInt64) :
    ∃ after, Keeps catalog after ∧ Untouched catalog after ∧
      catalog.matchingRows id pred limit =
        some ((limited limit ((List.range column.rows).filter fun i =>
          matrixPredMatch (u32At column.bytes i) pred)).map UInt64.ofNat,
          after) := by
  have registered : ∀ other ∈ [id], (catalog.contents other).isSome := by
    intro other member
    cases List.mem_singleton.mp member
    exact registered_of_view seen
  have fits := u32Rows_eq (Nat.mul_div_le column.bytes.length 4)
  have reduced : ∀ lent : Catalog κ, Lent catalog [id] lent →
      (do
        let n := lent.sizeBytes id / 4
        let f ← (lent.hostBytes id).bind (u32Rows n)
        some (limited limit
          (((List.range n).filter fun i => matrixPredMatch (f i) pred).map
            UInt64.ofNat))) =
      some ((limited limit ((List.range column.rows).filter fun i =>
        matrixPredMatch (u32At column.bytes i) pred)).map UInt64.ofNat) := by
    intro lent shows
    have lends := shows.lends List.mem_cons_self seen
    simp only [lends.hostBytes, lends.sizeBytes, Option.bind_eq_bind,
      Option.bind_some, fits, ColumnView.rows, u32, MatrixType.width,
      limited_map]
  obtain ⟨after, keeps, ran⟩ :=
    withBorrowed_eq wellFormed registered reduced
  have same := samePlaces_withBorrowed _ _ ran
  exact ⟨after, keeps, ⟨keeps.contents, same.columns⟩, ran⟩

include wellFormed seen in
/-- A projection without a filter. -/
theorem project_all_eq (pred : MatrixPredicate) (limit : UInt64) :
    ∃ after, Keeps catalog after ∧ Untouched catalog after ∧
      catalog.project id false 0 pred limit =
        some (limited limit (column.selected none), after) := by
  have known : (catalog.columns.lookup id).isSome := by
    rw [isSome_lookup_eq wellFormed]
    exact registered_of_view seen
  have fits := rows_lt wellFormed seen
  have inside : ∀ r ∈ limited limit (List.range column.rows),
      r < column.rows := by
    intro r member
    exact List.mem_range.mp (mem_of_limited member)
  rw [project, if_neg Bool.false_ne_true, if_pos known,
    columnRows_of_view wellFormed seen, limited_map]
  obtain ⟨after, keeps, untouched, ran⟩ :=
    gather_eq wellFormed seen (inside_ofNat fits inside)
  refine ⟨after, keeps, untouched, ?_⟩
  rw [ran, map_word_ofNat fits inside, ← limited_map]
  simp only [ColumnView.selected, List.filter_true]

include wellFormed seen in
/-- A projection whose filter column has the same number of rows. -/
theorem project_filtered_eq {fid : UInt64} {filter : ColumnView}
    (filterSeen : catalog.view fid = some filter)
    (u32 : filter.type = .U32) (aligned : filter.rows = column.rows)
    (pred : MatrixPredicate) (limit : UInt64) :
    ∃ after, Keeps catalog after ∧ Untouched catalog after ∧
      catalog.project id true fid pred limit =
        some (limited limit (column.selected (some (filter, pred))),
          after) := by
  obtain ⟨middle, keeps, untouched, matched⟩ :=
    matchingRows_eq wellFormed filterSeen u32 pred limit
  have fits := rows_lt wellFormed seen
  have inside : ∀ r ∈ limited limit ((List.range filter.rows).filter fun i =>
      matrixPredMatch (u32At filter.bytes i) pred), r < column.rows := by
    intro r member
    rw [← aligned]
    exact List.mem_range.mp (List.mem_filter.mp (mem_of_limited member)).1
  have seen' : middle.view id = some column := by
    rw [keeps.view]
    exact seen
  obtain ⟨after, keeps', untouched', ran⟩ :=
    gather_eq keeps.wellFormed seen' (inside_ofNat fits inside)
  refine ⟨after, keeps.trans keeps', untouched.trans untouched', ?_⟩
  rw [project, if_pos rfl, matched]
  simp only [Option.bind_eq_bind, Option.bind_some, ran]
  rw [map_word_ofNat fits inside, ← limited_map, aligned]
  rfl

end

end Catalog

end MatrixDB
