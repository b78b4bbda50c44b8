import MatrixDB.Catalog.Loading
import MatrixDB.Lib.TwinRun
import MatrixDB.Query.Strings
import MatrixDB.Tier.Placement

/-!
# The bytes and the brain in lockstep

The catalog knows where the bytes of a column are, the manager where it
believes them to be.  A query moves columns without telling the manager and
moves them back; a plan is decided by the manager and executed on the bytes; a
load and an append change both.
-/

namespace MatrixDB

open Lib

theorem TieredColumn.migrateTo_place {column moved : TieredColumn}
    {dest : MemorySpace} (went : column.migrateTo dest = some moved) :
    moved.tier = dest ∧ moved.size = column.size := by
  unfold TieredColumn.migrateTo at went
  split at went
  · rename_i there
    cases went
    exact ⟨there.symm, rfl⟩
  · obtain ⟨staged, _, went⟩ := Option.bind_eq_some_iff.mp went
    cases dest with
    | HOST =>
        cases went
        exact ⟨rfl, rfl⟩
    | COLD =>
        cases went
        exact ⟨rfl, rfl⟩
    | DEVICE => cases went
    | UNIFIED => cases went

/-- Where a column is. -/
def placeIn (columns : IdMap TieredColumn) (id : UInt64) : Option Place :=
  (columns.lookup id).map fun column => (column.tier, column.size)

theorem placeIn_insert (columns : IdMap TieredColumn) (id other : UInt64)
    (column : TieredColumn) :
    placeIn (columns.insert id column) other =
      if other = id then some (column.tier, column.size)
      else placeIn columns other := by
  unfold placeIn
  by_cases own : other = id
  · subst own
    rw [AList.lookup_insert, if_pos rfl]
    rfl
  · rw [AList.lookup_insert_ne own, if_neg own]

/-- The executor takes every column to where the plan leaves it. -/
theorem applyPlan_place {plan : List MigrationDecision}
    {columns moved : IdMap TieredColumn} {applied : Nat}
    (ran : applyPlan plan columns = some (moved, applied)) (id : UInt64) :
    placeIn moved id = settle plan id (placeIn columns id) := by
  induction plan generalizing columns applied with
  | nil =>
      cases ran
      rfl
  | cons decision plan induction =>
      rw [applyPlan] at ran
      split at ran
      · rename_i absent
        rw [induction ran]
        by_cases own : decision.columnId = id
        · have nowhere : placeIn columns id = none := by
            rw [placeIn, ← own, absent]
            rfl
          simp [settle, own, nowhere]
        · simp [settle, own]
      · rename_i column found
        obtain ⟨there, went, ran⟩ := Option.bind_eq_some_iff.mp ran
        obtain ⟨⟨last, count⟩, later, ran⟩ := Option.bind_eq_some_iff.mp ran
        cases ran
        obtain ⟨tier, size⟩ := TieredColumn.migrateTo_place went
        rw [induction later, placeIn_insert, tier, size]
        by_cases own : decision.columnId = id
        · subst own
          simp [settle, placeIn, found]
        · have different : id ≠ decision.columnId := Ne.symm own
          simp [settle, own, different]

variable {κ : Type}

namespace Catalog

def place (catalog : Catalog κ) (id : UInt64) : Option Place :=
  placeIn catalog.columns id

/-- Both sides know the same columns, in the same tiers, of the same sizes. -/
def Lockstep (catalog : Catalog κ) : Prop :=
  ∀ id, catalog.place id = catalog.tierMgr.place id

/-- Neither side has moved or resized anything. -/
structure SamePlaces (before after : Catalog κ) : Prop where
  columns : ∀ id, after.place id = before.place id
  manager : ∀ id, after.tierMgr.place id = before.tierMgr.place id

namespace SamePlaces

variable {before middle after : Catalog κ}

theorem refl (catalog : Catalog κ) : SamePlaces catalog catalog :=
  ⟨fun _ => rfl, fun _ => rfl⟩

theorem trans (first : SamePlaces before middle)
    (second : SamePlaces middle after) : SamePlaces before after :=
  ⟨fun id => (second.columns id).trans (first.columns id),
    fun id => (second.manager id).trans (first.manager id)⟩

end SamePlaces

theorem Lockstep.same {before after : Catalog κ} (lockstep : before.Lockstep)
    (same : SamePlaces before after) : after.Lockstep := by
  intro id
  rw [same.columns, same.manager]
  exact lockstep id

theorem lockstep_fresh (hostCap : Nat) :
    (fresh hostCap : Catalog κ).Lockstep := by
  intro id
  rfl

/-- The fields that say where columns are. -/
theorem SamePlaces.of_eq {before after : Catalog κ}
    (columns : after.columns = before.columns)
    (manager : after.tierMgr = before.tierMgr) : SamePlaces before after := by
  constructor
  · intro id
    rw [place, columns]
    rfl
  · intro id
    rw [manager]

/-! ## Borrowing and giving back -/

theorem samePlaces_recordAccess (catalog : Catalog κ) (id : UInt64) :
    SamePlaces catalog (catalog.recordAccess id) :=
  ⟨fun _ => rfl, fun other => TierManager.place_recordAccess _ _ other _⟩

/-- What a borrow remembers is where the column was. -/
theorem borrow_place {catalog lent : Catalog κ} {id : UInt64}
    {home : MemorySpace} (borrowed : catalog.borrow id = some (home, lent)) :
    lent.tierMgr = catalog.tierMgr ∧
      ∃ size, catalog.place id = some (home, size) ∧
        ∀ other, lent.place other =
          if other = id then some (.HOST, size) else catalog.place other := by
  unfold borrow at borrowed
  obtain ⟨column, found, borrowed⟩ := Option.bind_eq_some_iff.mp borrowed
  have placed : catalog.place id = some (column.tier, column.size) := by
    rw [place, placeIn, found]
    rfl
  split at borrowed
  · rename_i host
    cases borrowed
    rw [host] at placed
    refine ⟨rfl, column.size, placed, ?_⟩
    intro other
    by_cases own : other = id
    · rw [own, if_pos rfl, placed]
    · rw [if_neg own]
  · obtain ⟨moved, went, borrowed⟩ := Option.bind_eq_some_iff.mp borrowed
    cases borrowed
    obtain ⟨tier, size⟩ := TieredColumn.migrateTo_place went
    refine ⟨rfl, column.size, placed, ?_⟩
    intro other
    have inserted := placeIn_insert catalog.columns id other moved
    rw [tier, size] at inserted
    exact inserted

theorem giveBack_place {catalog after : Catalog κ} {id : UInt64}
    {home : MemorySpace} {size : Nat}
    (there : catalog.place id = some (.HOST, size))
    (gave : catalog.giveBack id home = some after) :
    after.tierMgr = catalog.tierMgr ∧
      ∀ other, after.place other =
        if other = id then some (home, size) else catalog.place other := by
  unfold giveBack at gave
  split at gave
  · rename_i host
    cases gave
    refine ⟨rfl, ?_⟩
    intro other
    by_cases own : other = id
    · rw [own, if_pos rfl, there, host]
    · rw [if_neg own]
  · obtain ⟨column, found, gave⟩ := Option.bind_eq_some_iff.mp gave
    obtain ⟨moved, went, gave⟩ := Option.bind_eq_some_iff.mp gave
    cases gave
    obtain ⟨tier, resized⟩ := TieredColumn.migrateTo_place went
    have sized : column.size = size := by
      rw [place, placeIn, found] at there
      exact (Prod.mk.inj (Option.some.inj there)).2
    refine ⟨rfl, ?_⟩
    intro other
    have inserted := placeIn_insert catalog.columns id other moved
    rw [tier, resized, sized] at inserted
    exact inserted

/-- A loan ends where it began. -/
theorem samePlaces_loan {catalog lent used after : Catalog κ} {id : UInt64}
    {home : MemorySpace} (borrowed : catalog.borrow id = some (home, lent))
    (same : SamePlaces lent used) (gave : used.giveBack id home = some after) :
    SamePlaces catalog after := by
  obtain ⟨manager, size, wasAt, nowAt⟩ := borrow_place borrowed
  have there : used.place id = some (.HOST, size) := by
    rw [same.columns, nowAt, if_pos rfl]
  obtain ⟨kept, backAt⟩ := giveBack_place there gave
  constructor
  · intro other
    rw [backAt, same.columns, nowAt]
    by_cases own : other = id
    · rw [if_pos own, own, wasAt]
    · rw [if_neg own, if_neg own]
  · intro other
    rw [kept, same.manager, manager]

theorem samePlaces_withLoan {A : Type} {catalog : Catalog κ} {id : UInt64}
    {reduce : Catalog κ → Option A} :
    Ensures (SamePlaces catalog) (catalog.withLoan id reduce) := by
  intro result after ran
  obtain ⟨⟨home, lent⟩, borrowed, ran⟩ := Option.bind_eq_some_iff.mp ran
  obtain ⟨reduced, _, ran⟩ := Option.bind_eq_some_iff.mp ran
  obtain ⟨back, gave, ran⟩ := Option.bind_eq_some_iff.mp ran
  cases ran
  exact samePlaces_loan borrowed (.refl lent) gave

theorem samePlaces_borrowAll {ids : List UInt64} {catalog borrowed after :
    Catalog κ} {homes : List (UInt64 × MemorySpace)}
    (took : borrowAll ids catalog = some (homes, borrowed))
    (gave : giveBackAll homes borrowed = some after) :
    SamePlaces catalog after := by
  induction ids generalizing catalog homes after with
  | nil =>
      cases took
      cases gave
      exact .refl _
  | cons id ids induction =>
      obtain ⟨⟨home, first⟩, one, took⟩ := Option.bind_eq_some_iff.mp took
      obtain ⟨⟨others, last⟩, more, took⟩ := Option.bind_eq_some_iff.mp took
      cases took
      obtain ⟨later, back, gave⟩ := Option.bind_eq_some_iff.mp gave
      exact (samePlaces_recordAccess catalog id).trans
        (samePlaces_loan one (induction more back) gave)

theorem samePlaces_withBorrowed {A : Type} {catalog : Catalog κ}
    {ids : List UInt64} {reduce : Catalog κ → Option A} :
    Ensures (SamePlaces catalog) (catalog.withBorrowed ids reduce) := by
  intro result after ran
  obtain ⟨⟨homes, borrowed⟩, took, ran⟩ := Option.bind_eq_some_iff.mp ran
  obtain ⟨reduced, _, ran⟩ := Option.bind_eq_some_iff.mp ran
  obtain ⟨back, gave, ran⟩ := Option.bind_eq_some_iff.mp ran
  cases ran
  exact samePlaces_borrowAll took gave

/-! ## Rebalancing -/

section
variable [CostArith κ]

theorem Lockstep.maybeRebalance {catalog after : Catalog κ}
    (lockstep : catalog.Lockstep)
    (ran : catalog.maybeRebalance = some after) : after.Lockstep := by
  unfold Catalog.maybeRebalance at ran
  simp only at ran
  split at ran
  · obtain ⟨⟨moved, applied⟩, went, ran⟩ := Option.bind_eq_some_iff.mp ran
    cases ran
    intro id
    -- The plan is the way from the old placement to the new one.
    have bytes : placeIn moved id = _ := applyPlan_place went id
    have brain := TierManager.rebalance_tracks catalog.tierMgr id
    exact bytes.trans ((congrArg _ (lockstep id)).trans brain.symm)
  · cases ran
    exact lockstep

theorem lockstep_scanBorrowed {A : Type} {catalog : Catalog κ}
    {ids : List UInt64} {reduce : Catalog κ → Option A}
    (lockstep : catalog.Lockstep) :
    Ensures Lockstep (catalog.scanBorrowed ids reduce) := by
  intro result after ran
  obtain ⟨⟨reduced, back⟩, lent, ran⟩ := Option.bind_eq_some_iff.mp ran
  obtain ⟨balanced, rebalanced, ran⟩ := Option.bind_eq_some_iff.mp ran
  cases ran
  exact (lockstep.same (samePlaces_withBorrowed _ _ lent)).maybeRebalance
    rebalanced

/-! ## Loading and appending -/

theorem Lockstep.loadBytes {catalog after : Catalog κ}
    (lockstep : catalog.Lockstep) {id : UInt64} {bytes : Bytes}
    (loaded : catalog.loadBytes id bytes = some after) : after.Lockstep := by
  unfold Catalog.loadBytes at loaded
  split at loaded
  · cases loaded
  split at loaded
  · cases loaded
  split at loaded
  · cases loaded
  cases loaded
  intro other
  have registered := TierManager.place_registerColumn catalog.tierMgr id other
    bytes.length .HOST
  have inserted := placeIn_insert catalog.columns id other
    (TieredColumn.create id bytes)
  rw [Catalog.place, inserted, registered]
  exact congrArg _ (lockstep other)

end

theorem Lockstep.appendRaw {catalog after : Catalog κ}
    (lockstep : catalog.Lockstep) {id : UInt64} {bytes : Bytes}
    (appended : catalog.appendRaw id bytes = some after) : after.Lockstep := by
  obtain ⟨⟨home, lent⟩, borrowed, appended⟩ :=
    Option.bind_eq_some_iff.mp appended
  obtain ⟨column, found, appended⟩ := Option.bind_eq_some_iff.mp appended
  obtain ⟨grown, grew, appended⟩ := Option.bind_eq_some_iff.mp appended
  obtain ⟨back, gave, appended⟩ := Option.bind_eq_some_iff.mp appended
  cases appended
  obtain ⟨manager, size, wasAt, nowAt⟩ := borrow_place borrowed
  -- The column grows in the host tier and keeps its tier.
  have host : grown.tier = .HOST := by
    unfold TieredColumn.appendBytes at grew
    split at grew
    · rename_i tier
      split at grew
      · cases grew
      · cases grew
        exact tier
    · cases grew
  have there : (lent.setColumn id grown).place id =
      some (.HOST, grown.size) := by
    have inserted := placeIn_insert lent.columns id id grown
    rw [if_pos rfl, host] at inserted
    exact inserted
  obtain ⟨kept, backAt⟩ := giveBack_place there gave
  have sized : back.sizeBytes id = grown.size := by
    have self := backAt id
    rw [if_pos rfl, Catalog.place, placeIn] at self
    obtain ⟨column, stored, equal⟩ := Option.map_eq_some_iff.mp self
    rw [sizeBytes, stored]
    exact (Prod.mk.inj equal).2
  intro other
  have brain := TierManager.place_updateBytes back.tierMgr id other
    (back.sizeBytes id)
  have before : back.tierMgr.place other = catalog.place other := by
    rw [kept, lockstep other]
    exact congrArg (TierManager.place · other) manager
  rw [before] at brain
  refine Eq.trans ?_ brain.symm
  rw [sized]
  refine (backAt other).trans ?_
  by_cases own : other = id
  · subst own
    simp [wasAt]
  · have inserted := placeIn_insert lent.columns id other grown
    rw [if_neg own] at inserted
    rw [if_neg own]
    refine inserted.trans ?_
    have unmoved : placeIn lent.columns other = catalog.place other :=
      (nowAt other).trans (if_neg own)
    simpa [own] using unmoved

end Catalog

end MatrixDB
