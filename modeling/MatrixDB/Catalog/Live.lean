import MatrixDB.Catalog.Runs
import MatrixDB.Catalog.Totality

/-!
# The states an engine can be in

Every state that the public calls reach is settled: the catalog is well formed
and in lockstep with the manager.  What follows holds in all of them: no
rebalance asks for the device tier, and the shared path agrees with the
exclusive one.
-/

namespace MatrixDB

open Lib

variable {κ : Type}

namespace Catalog

/-! ## Saving a snapshot -/

theorem samePlaces_saveColumns {room : Nat} {ids : List UInt64}
    {written : Bytes} {catalog : Catalog κ} :
    Ensures (SamePlaces catalog) (saveColumns room ids written catalog) := by
  induction ids generalizing written catalog with
  | nil => exact .pure (.refl catalog)
  | cons id ids induction =>
      intro out after ran
      obtain ⟨⟨home, lent⟩, borrowed, ran⟩ := Option.bind_eq_some_iff.mp ran
      obtain ⟨bytes, _, ran⟩ := Option.bind_eq_some_iff.mp ran
      obtain ⟨back, gave, ran⟩ := Option.bind_eq_some_iff.mp ran
      have loan := samePlaces_loan borrowed (.refl lent) gave
      split at ran
      · exact loan.trans (induction _ _ ran)
      · cases ran
        exact loan

theorem samePlaces_saveCatalog {room : Nat} {order : WalkOrder}
    {catalog : Catalog κ} :
    Ensures (SamePlaces catalog) (catalog.saveCatalog room order) := by
  apply Ensures.ite
  · intro _
    exact .pure (.refl catalog)
  · intro _
    refine .bind samePlaces_saveColumns ?_
    intro written after same
    exact .pure same

theorem Settled.saveCatalog {catalog : Catalog κ} (settled : catalog.Settled)
    {room : Nat} {order : WalkOrder} (walks : order.Walks catalog) :
    Ensures Settled (catalog.saveCatalog room order) := by
  intro out after ran
  obtain ⟨_, _, same, keeps, _⟩ := saveCatalog_eq settled.wellFormed room
    (fun id member => registered_of_mem_keys settled.wellFormed
      (walks.columns.mem_iff.mp member))
  cases ran.symm.trans same
  exact settled.keeps keeps (samePlaces_saveCatalog _ _ ran)

/-- Whatever the shared path returns, only its counters have changed. -/
theorem executeQueryShared_beside {catalog after : Catalog κ} {ns : UInt64}
    {q : MatrixQuery} {outcome : ReadOutcome}
    (ran : catalog.executeQueryShared ns q = some (outcome, after)) :
    catalog.executeQuerySharedImpl q = some outcome ∧
      after = { catalog with latency := after.latency } := by
  obtain ⟨result, answered, rest⟩ := Option.bind_eq_some_iff.mp ran
  cases result with
  | SERVED out =>
      cases rest
      exact ⟨answered, rfl⟩
  | NEEDS_EXCLUSIVE =>
      cases rest
      exact ⟨answered, rfl⟩

/-- A masked column is never served here, so nothing is read past a mask. -/
theorem isSome_executeQueryShared {catalog : Catalog κ}
    (wellFormed : catalog.WellFormed) (ns : UInt64) (q : MatrixQuery) :
    (catalog.executeQueryShared ns q).isSome := by
  have returns : (catalog.executeQuerySharedImpl q).isSome := by
    by_cases masked : (catalog.nullMasks.lookup q.valueCol).isSome
    · simp [executeQuerySharedImpl, masked]
    · rcases executeQuerySharedImpl_eq wellFormed q with
        declined | ⟨result, answered, shared⟩
      · rw [declined]
        rfl
      · have reads : (catalog.answer q).isSome := by
          rw [answer_returns_iff wellFormed]
          rintro ⟨_, _, _, mask, stored, _⟩
          rw [stored] at masked
          exact masked rfl
        rw [answered, isSome_served] at reads
        rw [shared, Option.isSome_map]
        exact reads
  obtain ⟨outcome, answered⟩ := Option.isSome_iff_exists.mp returns
  rw [executeQueryShared, answered]
  cases outcome with
  | SERVED out => rfl
  | NEEDS_EXCLUSIVE => rfl

theorem Settled.latency {catalog after : Catalog κ} (settled : catalog.Settled)
    (beside : after = { catalog with latency := after.latency }) :
    after.Settled := by
  rw [beside]
  exact settled.beside (wellFormed_same settled.wellFormed
    settled.wellFormed.held (fun _ => rfl) rfl settled.wellFormed.inert) rfl rfl

end Catalog

namespace Analytics

/-- The states of a CPU build: any calls, any settings, any budget. -/
inductive Live [CostArith κ] (strtod : Bytes → StrtodResult) :
    Analytics κ → Prop where
  | fresh (hostCap : Nat) : Live strtod (fresh hostCap)
  | call {engine after : Analytics κ} {call : CatalogCall}
      {ns : Nat → UInt64} {result : CallResult} (before : Live strtod engine)
      (ran : call.run strtod ns engine = some (result, after)) :
      Live strtod after
  | tune {engine : Analytics κ} (before : Live strtod engine)
      (intervals : List UInt64) : Live strtod (engine.tune intervals)
  | executeQueryShared {engine : Analytics κ} {ns : UInt64} {q : MatrixQuery}
      {outcome : ReadOutcome} {catalog : Catalog κ}
      (before : Live strtod engine)
      (ran : engine.catalog.executeQueryShared ns q =
        some (outcome, catalog)) :
      Live strtod { engine with catalog }
  | saveCatalog {engine : Analytics κ} {room : Nat}
      {order : Catalog.WalkOrder} {out : Option Bytes} {catalog : Catalog κ}
      (before : Live strtod engine) (walks : order.Walks engine.catalog)
      (ran : engine.catalog.saveCatalog room order = some (out, catalog)) :
      Live strtod { engine with catalog }

/-- The engine after some calls. -/
def afterCalls [CostArith κ] (strtod : Bytes → StrtodResult) :
    List CatalogCall → Analytics κ → Option (Analytics κ)
  | [], engine => some engine
  | call :: calls, engine => do
      let (_, engine) ← call.run strtod (fun _ => 0) engine
      afterCalls strtod calls engine

theorem Live.afterCalls [CostArith κ] {strtod : Bytes → StrtodResult}
    {engine after : Analytics κ} {calls : List CatalogCall}
    (live : Live strtod engine)
    (ran : Analytics.afterCalls strtod calls engine = some after) :
    Live strtod after := by
  induction calls generalizing engine with
  | nil =>
      cases ran
      exact live
  | cons call calls induction =>
      obtain ⟨⟨_, middle⟩, first, rest⟩ := Option.bind_eq_some_iff.mp ran
      exact induction (.call live first) rest

theorem alike_self {engine : Analytics κ} (settled : engine.catalog.Settled) :
    Alike engine engine :=
  ⟨settled.alike, rfl, rfl⟩

section
variable [SoundCost κ] {strtod : Bytes → StrtodResult}
  {engine : Analytics κ}

theorem Live.settled (live : Live strtod engine) : engine.catalog.Settled := by
  induction live with
  | fresh hostCap => exact Catalog.settled_fresh hostCap
  | @call engine after call ns result _ ran settled =>
      have twin : Twin (Grown strtod call _) _ _ :=
        (alike_self settled).run ns ns call
      exact (twin.ensures _ _ ran).catalog.left
  | tune _ intervals settled =>
      exact ((alike_self settled).tuneLeft intervals).catalog.left
  | executeQueryShared _ ran settled =>
      exact settled.latency (Catalog.executeQueryShared_beside ran).2
  | saveCatalog _ walks ran settled =>
      exact settled.saveCatalog walks _ _ ran

/-! ## The device tier -/

/-- In every reachable state the catalog and the manager know the same columns,
place each in the same one of the two tiers a CPU build has, and agree on its
size.  Whenever a scan has given its columns back and the manager is asked, no
decision names the device tier and the plan can be carried out. -/
theorem lockstep_and_no_device (live : Live strtod engine) :
    (∀ id, (engine.catalog.columns.lookup id).isSome =
      (engine.catalog.tierMgr.find id).isSome) ∧
    (∀ id column, engine.catalog.columns.lookup id = some column →
      ∃ entry, engine.catalog.tierMgr.find id = some entry ∧
        column.tier = entry.tier ∧
        (column.tier = .HOST ∨ column.tier = .COLD) ∧
        entry.bytes = column.size) ∧
    ∀ {A : Type} (ids : List UInt64) (reduce : Catalog κ → Option A)
      (result : A) (lent : Catalog κ),
      engine.catalog.withBorrowed ids reduce = some (result, lent) →
      (∀ decision ∈ lent.tierMgr.rebalance.1, decision.dest ≠ .DEVICE) ∧
        lent.maybeRebalance.isSome := by
  have settled := live.settled
  refine ⟨?_, ?_, ?_⟩
  · intro id
    have place := settled.lockstep id
    rw [Catalog.place, placeIn, TierManager.place] at place
    have known := congrArg Option.isSome place
    rwa [Option.isSome_map, Option.isSome_map] at known
  · intro id column found
    have place := settled.lockstep id
    rw [Catalog.place, placeIn, found, TierManager.place] at place
    obtain ⟨entry, stored, same⟩ := Option.map_eq_some_iff.mp place.symm
    obtain ⟨tier, size⟩ := Prod.mk.inj same
    obtain ⟨bytes, holds⟩ := settled.wellFormed.held id column found
    exact ⟨entry, stored, tier.symm, holds.tier_cases, size⟩
  · intro A ids reduce result lent returned
    have back := (Catalog.loan_withBorrowed settled ids).settles reduce _ _
      returned
    obtain ⟨_, reachable⟩ := TierManager.rebalance_passes
      back.wellFormed.inert
    obtain ⟨after, balanced, _⟩ :=
      Catalog.maybeRebalance_eq back.wellFormed
    refine ⟨?_, ?_⟩
    · intro decision member device
      rcases reachable decision member with host | cold
      · cases host.symm.trans device
      · cases cold.symm.trans device
    · rw [balanced]
      rfl

/-- `strtod` on a text that does not start with a number. -/
def noNumber (_ : Bytes) : StrtodResult :=
  { value := 0, consumed := 0, erange := false }

/-- One column in an engine with a budget of eight bytes. -/
def totals : Option (CallResult × Analytics ℚ) :=
  (CatalogCall.loadScanColumn 7 [1, 2, 3]).run noNumber (fun _ => 0) (fresh 8)

/-- The column that has been loaded is known to both sides, in the tier it was
born in. -/
theorem lockstep_loaded :
    ∃ engine : Analytics ℚ, Live noNumber engine ∧
      ∃ entry, engine.catalog.tierMgr.find 7 = some entry ∧
        MemorySpace.HOST = entry.tier ∧ entry.bytes = 12 := by
  have loaded : (totals.bind fun result =>
      result.2.catalog.columns.lookup 7) =
      some (TieredColumn.create 7 ([1, 2, 3].flatMap u32Bytes)) := by
    decide +kernel
  obtain ⟨⟨result, engine⟩, ran, found⟩ := Option.bind_eq_some_iff.mp loaded
  have live : Live noNumber engine := .call (.fresh 8) ran
  obtain ⟨entry, stored, tier, _, size⟩ :=
    (lockstep_and_no_device live).2.1 7 _ found
  exact ⟨engine, live, entry, stored, tier, size⟩

/-! ## The shared path -/

/-- The shared path always returns, leaves everything but the counters of the
latencies as it was, and serves only what the exclusive path returns. -/
theorem shared_path_agrees (live : Live strtod engine) (ns : UInt64)
    (q : MatrixQuery) :
    ∃ outcome after,
      engine.catalog.executeQueryShared ns q = some (outcome, after) ∧
      after = { engine.catalog with latency := after.latency } ∧
      ∀ out, outcome = .SERVED out → ∀ ns', ∃ last,
        engine.catalog.executeQuery ns' q = some (.OK, out, last) := by
  have wellFormed := live.settled.wellFormed
  have returns := Catalog.isSome_executeQueryShared wellFormed ns q
  obtain ⟨⟨outcome, after⟩, ran⟩ := Option.isSome_iff_exists.mp returns
  obtain ⟨impl, beside⟩ := Catalog.executeQueryShared_beside ran
  refine ⟨outcome, after, ran, beside, ?_⟩
  intro out served ns'
  subst served
  obtain ⟨last, _, same⟩ := Catalog.executeQuery_eq wellFormed ns' q
  rcases Catalog.executeQuerySharedImpl_eq wellFormed q with
    declined | ⟨result, answered, shared⟩
  · cases impl.symm.trans declined
  · rw [impl] at shared
    obtain ⟨words, decided, equal⟩ := Option.map_eq_some_iff.mp shared.symm
    cases equal
    rw [answered, decided] at same
    exact ⟨last, same⟩

/-- A sum that both paths answer. -/
theorem shared_path_agrees_sum :
    ∃ engine : Analytics ℚ, Live noNumber engine ∧
      ∃ last, engine.catalog.executeQuery 9 { valueCol := 7, agg := AGG_SUM } =
        some (.OK, [6], last) := by
  have served : (totals.bind fun result =>
      (result.2.catalog.executeQueryShared 5
        { valueCol := 7, agg := AGG_SUM }).map Prod.fst) =
      some (.SERVED [6]) := by
    decide +kernel
  obtain ⟨⟨result, engine⟩, ran, shared⟩ := Option.bind_eq_some_iff.mp served
  have live : Live noNumber engine := .call (.fresh 8) ran
  obtain ⟨outcome, after, same, _, agrees⟩ := shared_path_agrees live 5
    { valueCol := 7, agg := AGG_SUM }
  simp only [same, Option.map_some] at shared
  exact ⟨engine, live, agrees [6] (Option.some.inj shared) 9⟩

end

end Analytics

end MatrixDB
