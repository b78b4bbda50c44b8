import MatrixDB.Catalog.Query
import MatrixDB.Tier.Inert

/-!
# Moving columns between tiers changes no data

The bytes of a column can be read wherever it lives.  Borrowing, giving back
and rebalancing move columns, count and record heat, and change nothing else:
this is `Keeps`, and it is what every query does to a catalog.
-/

namespace MatrixDB

open Lib TieredColumn

/-! ## The map of columns -/

/-- The bytes of a column, in whatever tier. -/
def contentsOf (columns : IdMap TieredColumn) (id : UInt64) : Option Bytes :=
  (columns.lookup id).bind readToHost

/-- Every column is whole, in a tier the CPU build can hold. -/
def Held (columns : IdMap TieredColumn) : Prop :=
  ∀ id column, columns.lookup id = some column →
    ∃ bytes, Holds bytes column

theorem contentsOf_eq {columns : IdMap TieredColumn} {id : UInt64}
    {column : TieredColumn} {bytes : Bytes}
    (found : columns.lookup id = some column) (holds : Holds bytes column) :
    contentsOf columns id = some bytes := by
  rw [contentsOf, found, Option.bind_some]
  exact holds.readToHost_eq

theorem Held.lookup {columns : IdMap TieredColumn} (held : Held columns)
    {id : UInt64} {bytes : Bytes} (read : contentsOf columns id = some bytes) :
    ∃ column, columns.lookup id = some column ∧ Holds bytes column := by
  cases found : columns.lookup id with
  | none => simp [contentsOf, found] at read
  | some column =>
      obtain ⟨other, holds⟩ := held id column found
      have equal : bytes = other :=
        Option.some.inj (read.symm.trans (contentsOf_eq found holds))
      exact ⟨column, rfl, equal ▸ holds⟩

theorem contentsOf_insert_self (columns : IdMap TieredColumn) (id : UInt64)
    {column : TieredColumn} {bytes : Bytes} (holds : Holds bytes column) :
    contentsOf (columns.insert id column) id = some bytes :=
  contentsOf_eq (AList.lookup_insert columns) holds

theorem contentsOf_insert_ne (columns : IdMap TieredColumn) {id other : UInt64}
    (column : TieredColumn) (different : other ≠ id) :
    contentsOf (columns.insert id column) other = contentsOf columns other := by
  rw [contentsOf, AList.lookup_insert_ne different]
  rfl

theorem Held.insert {columns : IdMap TieredColumn} (held : Held columns)
    (id : UInt64) {column : TieredColumn} {bytes : Bytes}
    (holds : Holds bytes column) : Held (columns.insert id column) := by
  intro other found lookup
  by_cases own : other = id
  · subst own
    rw [AList.lookup_insert] at lookup
    cases lookup
    exact ⟨bytes, holds⟩
  · rw [AList.lookup_insert_ne own] at lookup
    exact held other found lookup

/-- A column that holds the same bytes elsewhere. -/
theorem Held.replace {columns : IdMap TieredColumn} (held : Held columns)
    {id : UInt64} {column moved : TieredColumn} {bytes : Bytes}
    (found : columns.lookup id = some column) (holds : Holds bytes column)
    (holdsMoved : Holds bytes moved) :
    Held (columns.insert id moved) ∧
      ∀ other, contentsOf (columns.insert id moved) other =
        contentsOf columns other := by
  refine ⟨held.insert id holdsMoved, ?_⟩
  intro other
  by_cases own : other = id
  · subst own
    rw [contentsOf_insert_self columns other holdsMoved,
      contentsOf_eq found holds]
  · exact contentsOf_insert_ne columns moved own

/-- A plan within the host and the cold tier can be executed. -/
theorem applyPlan_eq (plan : List MigrationDecision)
    (reachable : ∀ decision ∈ plan, decision.dest.Reachable)
    {columns : IdMap TieredColumn} (held : Held columns) :
    ∃ moved applied, applyPlan plan columns = some (moved, applied) ∧
      Held moved ∧ ∀ id, contentsOf moved id = contentsOf columns id := by
  induction plan generalizing columns with
  | nil => exact ⟨columns, 0, rfl, held, fun _ => rfl⟩
  | cons decision plan induction =>
      have later : ∀ decision ∈ plan, decision.dest.Reachable := by
        intro other member
        exact reachable other (List.mem_cons_of_mem decision member)
      cases found : columns.lookup decision.columnId with
      | none =>
          obtain ⟨moved, applied, ran, rest⟩ := induction later held
          exact ⟨moved, applied, by rw [applyPlan, found]; exact ran, rest⟩
      | some column =>
          obtain ⟨bytes, holds⟩ := held _ column found
          obtain ⟨there, went, _, holdsThere⟩ :=
            holds.migrateTo_eq (reachable decision List.mem_cons_self)
          obtain ⟨heldThere, same⟩ := held.replace found holds holdsThere
          obtain ⟨moved, applied, ran, heldMoved, sameMoved⟩ :=
            induction later heldThere
          refine ⟨moved, applied + 1, ?_, heldMoved, ?_⟩
          · rw [applyPlan, found]
            simp [went, ran]
          · intro id
            rw [sameMoved id, same id]

variable {κ : Type}

namespace Catalog

/-- The bytes of a catalog column, in whatever tier. -/
def contents (catalog : Catalog κ) (id : UInt64) : Option Bytes :=
  contentsOf catalog.columns id

/-! ## Well-formed catalogs -/

structure WellFormed (catalog : Catalog κ) : Prop where
  held : Held catalog.columns
  zero : catalog.contents 0 = none
  typed : ∀ id, catalog.contents id = none → catalog.colTypes.lookup id = none
  whole : ∀ id bytes, catalog.contents id = some bytes →
    bytes.length % (catalog.columnType id).width = 0
  sized : ∀ id bytes, catalog.contents id = some bytes →
    bytes.length ≤ MAX_VECTOR_BYTES
  inert : catalog.tierMgr.Inert

/-- The same data, possibly in other tiers. -/
structure Keeps (before after : Catalog κ) : Prop where
  wellFormed : after.WellFormed
  contents : ∀ id, after.contents id = before.contents id
  colTypes : after.colTypes = before.colTypes
  nullMasks : after.nullMasks = before.nullMasks
  stringDicts : after.stringDicts = before.stringDicts
  stringEncoders : after.stringEncoders = before.stringEncoders
  columnNames : after.columnNames = before.columnNames
  nameToId : after.nameToId = before.nameToId
  maxQueryGroups : after.maxQueryGroups = before.maxQueryGroups

namespace Keeps

variable {before middle after : Catalog κ}

theorem refl (wellFormed : before.WellFormed) : Keeps before before :=
  ⟨wellFormed, fun _ => rfl, rfl, rfl, rfl, rfl, rfl, rfl, rfl⟩

theorem trans (first : Keeps before middle) (second : Keeps middle after) :
    Keeps before after where
  wellFormed := second.wellFormed
  contents id := (second.contents id).trans (first.contents id)
  colTypes := second.colTypes.trans first.colTypes
  nullMasks := second.nullMasks.trans first.nullMasks
  stringDicts := second.stringDicts.trans first.stringDicts
  stringEncoders := second.stringEncoders.trans first.stringEncoders
  columnNames := second.columnNames.trans first.columnNames
  nameToId := second.nameToId.trans first.nameToId
  maxQueryGroups := second.maxQueryGroups.trans first.maxQueryGroups

theorem columnType (keeps : Keeps before after) (id : UInt64) :
    after.columnType id = before.columnType id := by
  rw [Catalog.columnType, keeps.colTypes]
  rfl

theorem valueNulls (keeps : Keeps before after) (id : UInt64) (n : Nat) :
    after.valueNulls id n = before.valueNulls id n := by
  rw [Catalog.valueNulls, keeps.nullMasks]
  rfl

end Keeps

theorem sizeBytes_eq {catalog : Catalog κ} (wellFormed : catalog.WellFormed)
    (id : UInt64) :
    catalog.sizeBytes id = ((catalog.contents id).map List.length).getD 0 := by
  cases found : catalog.columns.lookup id with
  | none => simp [sizeBytes, contents, contentsOf, found]
  | some column =>
      obtain ⟨bytes, holds⟩ := wellFormed.held id column found
      rw [contents, contentsOf_eq found holds]
      simp [sizeBytes, found, holds.size_eq]

theorem Keeps.sizeBytes {before after : Catalog κ}
    (wellFormed : before.WellFormed) (keeps : Keeps before after)
    (id : UInt64) : after.sizeBytes id = before.sizeBytes id := by
  rw [sizeBytes_eq keeps.wellFormed, sizeBytes_eq wellFormed, keeps.contents]

theorem Keeps.columnRows {before after : Catalog κ}
    (wellFormed : before.WellFormed) (keeps : Keeps before after)
    (id : UInt64) : after.columnRows id = before.columnRows id := by
  unfold Catalog.columnRows
  rw [keeps.sizeBytes wellFormed, keeps.columnType]

theorem catalogHas_eq {catalog : Catalog κ} (wellFormed : catalog.WellFormed)
    (id : UInt64) :
    catalog.catalogHas id = (catalog.contents id).isSome := by
  by_cases zero : id = 0
  · subst zero
    rw [wellFormed.zero]
    rfl
  · cases found : catalog.columns.lookup id with
    | none => simp [catalogHas, contents, contentsOf, found]
    | some column =>
        obtain ⟨bytes, holds⟩ := wellFormed.held id column found
        rw [contents, contentsOf_eq found holds]
        simp [catalogHas, found, zero]

/-- Data that is the same is as well formed. -/
theorem wellFormed_same {before after : Catalog κ}
    (wellFormed : before.WellFormed) (held : Held after.columns)
    (contents : ∀ id, after.contents id = before.contents id)
    (colTypes : after.colTypes = before.colTypes)
    (inert : after.tierMgr.Inert) : after.WellFormed := by
  have types : ∀ id, after.columnType id = before.columnType id := by
    intro id
    unfold columnType
    rw [colTypes]
  refine ⟨held, ?_, ?_, ?_, ?_, inert⟩
  · rw [contents]
    exact wellFormed.zero
  · intro id absent
    rw [contents] at absent
    rw [colTypes]
    exact wellFormed.typed id absent
  · intro id bytes read
    rw [contents] at read
    rw [types]
    exact wellFormed.whole id bytes read
  · intro id bytes read
    rw [contents] at read
    exact wellFormed.sized id bytes read

/-- Replacing the columns and the manager by others that hold the same. -/
theorem keeps_columns {catalog after : Catalog κ}
    (wellFormed : catalog.WellFormed) (held : Held after.columns)
    (same : ∀ id, contentsOf after.columns id = catalog.contents id)
    (inert : after.tierMgr.Inert)
    (rest : after = { catalog with
      columns := after.columns
      tierMgr := after.tierMgr
      scansSinceRebalance := after.scansSinceRebalance
      coldBorrows := after.coldBorrows
      rebalances := after.rebalances
      migrations := after.migrations
      latency := after.latency }) : Keeps catalog after := by
  have colTypes : after.colTypes = catalog.colTypes := by rw [rest]
  refine ⟨wellFormed_same wellFormed held same colTypes inert, same, colTypes,
    ?_, ?_, ?_, ?_, ?_, ?_⟩ <;> rw [rest]

theorem keeps_recordAccess {catalog : Catalog κ}
    (wellFormed : catalog.WellFormed) (id : UInt64) :
    Keeps catalog (catalog.recordAccess id) :=
  keeps_columns wellFormed wellFormed.held (fun _ => rfl)
    (TierManager.inert_recordAccess wellFormed.inert id _) rfl

theorem keeps_recordQueryLatency {catalog : Catalog κ}
    (wellFormed : catalog.WellFormed) (ns : UInt64) :
    Keeps catalog (catalog.recordQueryLatency ns) :=
  keeps_columns wellFormed wellFormed.held (fun _ => rfl) wellFormed.inert rfl

/-! ## Borrowing and giving back -/

/-- The column lives in the host tier. -/
def InHost (catalog : Catalog κ) (id : UInt64) : Prop :=
  ∀ column, catalog.columns.lookup id = some column → column.tier = .HOST

theorem hostBytes_eq {catalog : Catalog κ} (wellFormed : catalog.WellFormed)
    {id : UInt64} (inHost : catalog.InHost id) :
    catalog.hostBytes id = catalog.contents id := by
  cases found : catalog.columns.lookup id with
  | none => simp [hostBytes, contents, contentsOf, found]
  | some column =>
      obtain ⟨bytes, holds⟩ := wellFormed.held id column found
      rw [contents, contentsOf_eq found holds, hostBytes, found,
        Option.bind_some]
      exact holds.hostPtr_eq (inHost column found)

theorem borrow_eq {catalog : Catalog κ} (wellFormed : catalog.WellFormed)
    {id : UInt64} (registered : (catalog.contents id).isSome) :
    ∃ home borrowed, catalog.borrow id = some (home, borrowed) ∧
      home.Reachable ∧ Keeps catalog borrowed ∧ borrowed.InHost id ∧
      ∀ other, catalog.InHost other → borrowed.InHost other := by
  obtain ⟨bytes, read⟩ := Option.isSome_iff_exists.mp registered
  obtain ⟨column, found, holds⟩ := wellFormed.held.lookup read
  unfold borrow
  rw [found]
  by_cases host : column.tier = .HOST
  · refine ⟨.HOST, catalog, by simp [host], .inl rfl, .refl wellFormed, ?_,
      fun _ inHost => inHost⟩
    intro other same
    cases found.symm.trans same
    exact host
  · obtain ⟨moved, went, tier, holdsMoved⟩ :=
      holds.migrateTo_eq (.inl rfl : MemorySpace.HOST = .HOST ∨ _)
    obtain ⟨held, same⟩ := wellFormed.held.replace found holds holdsMoved
    refine ⟨column.tier, { catalog.setColumn id moved with
        coldBorrows := catalog.coldBorrows + 1 }, by simp [host, went],
      holds.tier_cases,
      keeps_columns wellFormed held same wellFormed.inert rfl, ?_, ?_⟩
    · intro other lookup
      have inserted : (catalog.columns.insert id moved).lookup id =
          some other := lookup
      rw [AList.lookup_insert] at inserted
      cases inserted
      exact tier
    · intro other inHost third lookup
      have inserted : (catalog.columns.insert id moved).lookup other =
          some third := lookup
      by_cases own : other = id
      · subst own
        rw [AList.lookup_insert] at inserted
        cases inserted
        exact tier
      · rw [AList.lookup_insert_ne own] at inserted
        exact inHost third inserted

theorem giveBack_eq {catalog : Catalog κ} (wellFormed : catalog.WellFormed)
    {id : UInt64} (registered : (catalog.contents id).isSome)
    {home : MemorySpace} (reachable : home.Reachable) :
    ∃ after, catalog.giveBack id home = some after ∧ Keeps catalog after := by
  obtain ⟨bytes, read⟩ := Option.isSome_iff_exists.mp registered
  obtain ⟨column, found, holds⟩ := wellFormed.held.lookup read
  unfold giveBack
  split
  · exact ⟨catalog, rfl, .refl wellFormed⟩
  · obtain ⟨moved, went, _, holdsMoved⟩ := holds.migrateTo_eq reachable
    obtain ⟨held, same⟩ := wellFormed.held.replace found holds holdsMoved
    refine ⟨catalog.setColumn id moved, by simp [found, went], ?_⟩
    exact keeps_columns wellFormed held same wellFormed.inert rfl

theorem borrowAll_eq (ids : List UInt64) {catalog : Catalog κ}
    (wellFormed : catalog.WellFormed)
    (registered : ∀ id ∈ ids, (catalog.contents id).isSome) :
    ∃ homes borrowed, borrowAll ids catalog = some (homes, borrowed) ∧
      (∀ entry ∈ homes, entry.1 ∈ ids ∧ entry.2.Reachable) ∧
      Keeps catalog borrowed ∧ (∀ id ∈ ids, borrowed.InHost id) ∧
      ∀ other, catalog.InHost other → borrowed.InHost other := by
  induction ids generalizing catalog with
  | nil =>
      exact ⟨[], catalog, rfl, by simp, .refl wellFormed, by simp,
        fun _ inHost => inHost⟩
  | cons id ids induction =>
      have recorded := keeps_recordAccess wellFormed id
      obtain ⟨home, first, took, reachable, firstKeeps, firstHost, stays⟩ :=
        borrow_eq recorded.wellFormed (registered id List.mem_cons_self)
      have sofar : Keeps catalog first := recorded.trans firstKeeps
      obtain ⟨homes, borrowed, ran, back, keeps, inHost, still⟩ :=
        induction sofar.wellFormed (by
          intro other member
          rw [sofar.contents other]
          exact registered other (List.mem_cons_of_mem id member))
      refine ⟨(id, home) :: homes, borrowed, by simp [borrowAll, took, ran],
        ?_, sofar.trans keeps, ?_, fun other host => still other
          (stays other host)⟩
      · intro entry member
        rcases List.mem_cons.mp member with here | later
        · subst here
          exact ⟨List.mem_cons_self, reachable⟩
        · obtain ⟨within, home⟩ := back entry later
          exact ⟨List.mem_cons_of_mem id within, home⟩
      · intro other member
        rcases List.mem_cons.mp member with here | later
        · subst here
          exact still other firstHost
        · exact inHost other later

theorem giveBackAll_eq (homes : List (UInt64 × MemorySpace))
    {catalog : Catalog κ} (wellFormed : catalog.WellFormed)
    (back : ∀ entry ∈ homes,
      (catalog.contents entry.1).isSome ∧ entry.2.Reachable) :
    ∃ after, giveBackAll homes catalog = some after ∧ Keeps catalog after := by
  induction homes with
  | nil => exact ⟨catalog, rfl, .refl wellFormed⟩
  | cons entry homes induction =>
      obtain ⟨later, ran, keeps⟩ := induction fun other member =>
        back other (List.mem_cons_of_mem entry member)
      obtain ⟨registered, reachable⟩ := back entry List.mem_cons_self
      have present : (later.contents entry.1).isSome := by
        rw [keeps.contents]
        exact registered
      obtain ⟨after, gave, last⟩ :=
        giveBack_eq keeps.wellFormed present reachable
      refine ⟨after, ?_, keeps.trans last⟩
      simp [giveBackAll, ran, gave]

/-- What a reduction finds when its columns are borrowed. -/
structure Lent (before : Catalog κ) (ids : List UInt64)
    (borrowed : Catalog κ) : Prop where
  keeps : Keeps before borrowed
  hostBytes : ∀ id ∈ ids, borrowed.hostBytes id = before.contents id

/-- Borrowing around a reduction changes no data. -/
theorem withBorrowed_eq {A : Type} {catalog : Catalog κ}
    (wellFormed : catalog.WellFormed) {ids : List UInt64}
    (registered : ∀ id ∈ ids, (catalog.contents id).isSome)
    {reduce : Catalog κ → Option A} {result : Option A}
    (reduced : ∀ borrowed, Lent catalog ids borrowed →
      reduce borrowed = result) :
    ∃ after, Keeps catalog after ∧
      catalog.withBorrowed ids reduce = result.map fun r => (r, after) := by
  obtain ⟨homes, borrowed, ran, back, keeps, inHost, _⟩ :=
    borrowAll_eq ids wellFormed registered
  have lent : Lent catalog ids borrowed := by
    refine ⟨keeps, ?_⟩
    intro id member
    rw [hostBytes_eq keeps.wellFormed (inHost id member), keeps.contents]
  obtain ⟨after, gave, last⟩ := giveBackAll_eq homes keeps.wellFormed (by
    intro entry member
    obtain ⟨within, reachable⟩ := back entry member
    rw [keeps.contents]
    exact ⟨registered entry.1 within, reachable⟩)
  refine ⟨after, keeps.trans last, ?_⟩
  simp only [withBorrowed, ran, Option.bind_eq_bind, Option.bind_some,
    reduced borrowed lent]
  cases result with
  | none => rfl
  | some r => simp [gave]

/-! ## Rebalancing -/

section
variable [SoundCost κ]

theorem maybeRebalance_eq {catalog : Catalog κ}
    (wellFormed : catalog.WellFormed) :
    ∃ after, catalog.maybeRebalance = some after ∧ Keeps catalog after := by
  unfold maybeRebalance
  simp only
  split
  · obtain ⟨inert, reachable⟩ :=
      TierManager.rebalance_passes wellFormed.inert
    obtain ⟨moved, applied, ran, held, same⟩ :=
      applyPlan_eq _ reachable wellFormed.held
    rw [ran]
    exact ⟨_, rfl, keeps_columns wellFormed held same inert rfl⟩
  · exact ⟨_, rfl, keeps_columns wellFormed wellFormed.held (fun _ => rfl)
      wellFormed.inert rfl⟩

theorem scanBorrowed_eq {A : Type} {catalog : Catalog κ}
    (wellFormed : catalog.WellFormed) {ids : List UInt64}
    (registered : ∀ id ∈ ids, (catalog.contents id).isSome)
    {reduce : Catalog κ → Option A} {result : Option A}
    (reduced : ∀ borrowed, Lent catalog ids borrowed →
      reduce borrowed = result) :
    ∃ after, Keeps catalog after ∧
      catalog.scanBorrowed ids reduce = result.map fun r => (r, after) := by
  obtain ⟨returned, keeps, ran⟩ :=
    withBorrowed_eq wellFormed registered reduced
  obtain ⟨after, rebalanced, last⟩ := maybeRebalance_eq keeps.wellFormed
  refine ⟨after, keeps.trans last, ?_⟩
  rw [scanBorrowed, ran]
  cases result with
  | none => rfl
  | some r => simp [rebalanced]

end

end Catalog

end MatrixDB
