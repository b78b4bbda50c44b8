import MatrixDB.Tier.Moves

/-!
# Runs of the brain and their plans

A run is any sequence of the public calls, and between two calls the map may
come to be walked in another order.  Beside the manager a run keeps a diary of
where each column has arrived and at which tick, counted without wrapping
around.
-/

namespace MatrixDB

variable {κ : Type}

/-- A column has come to a tier. -/
structure Arrival where
  id : UInt64
  tier : MemorySpace
  tick : Nat
  deriving DecidableEq

/-- A diary has its last page first. -/
def lastArrival (diary : List Arrival) (id : UInt64) : Option Arrival :=
  diary.find? fun arrival => arrival.id == id

/-- What a plan adds to a diary. -/
def arrivals (tick : Nat) (plan : List MigrationDecision) : List Arrival :=
  (plan.map fun decision => ⟨decision.columnId, decision.dest, tick⟩).reverse

/-- One tier down. -/
def Demotes (source dest : MemorySpace) : Prop :=
  (source = .DEVICE ∧ dest = .HOST) ∨ (source = .HOST ∧ dest = .COLD)

def Adjacent (source dest : MemorySpace) : Prop :=
  Demotes source dest ∨ Demotes dest source

theorem demotes_slowerTier {tier : MemorySpace}
    (bounded : tier = .DEVICE ∨ tier = .HOST) :
    Demotes tier (slowerTier tier) := by
  rcases bounded with device | host
  · rw [device]
    exact .inl ⟨rfl, rfl⟩
  · rw [host]
    exact .inr ⟨rfl, rfl⟩

theorem demotes_fasterTier {tier : MemorySpace}
    (up : fasterTier tier ≠ tier) : Demotes (fasterTier tier) tier := by
  cases tier with
  | HOST => exact .inl ⟨rfl, rfl⟩
  | COLD => exact .inr ⟨rfl, rfl⟩
  | DEVICE => exact absurd rfl up
  | UNIFIED => exact absurd rfl up

theorem Demotes.asymm {source dest : MemorySpace}
    (down : Demotes source dest) : ¬ Demotes dest source := by
  rcases down with ⟨rfl, rfl⟩ | ⟨rfl, rfl⟩
  · rintro (⟨wrong, _⟩ | ⟨_, wrong⟩)
    · cases wrong
    · cases wrong
  · rintro (⟨wrong, _⟩ | ⟨wrong, _⟩)
    · cases wrong
    · cases wrong

namespace TierManager

/-- The constructor. -/
def create (model : CostModel) (deviceCap hostCap : UInt64) :
    TierManager κ :=
  { costModel := model, deviceCap := deviceCap.toNat
    hostCap := hostCap.toNat, tick := 0, cols := [] }

def tierOf (manager : TierManager κ) (id : UInt64) : Option MemorySpace :=
  (manager.find id).map fun c => c.tier

theorem tierOf_eq (manager : TierManager κ) (id : UInt64) :
    manager.tierOf id = (manager.place id).map Prod.fst := by
  rw [tierOf, place, Option.map_map]
  rfl

/-! ## Dated columns -/

/-- The diary knows when each column arrived in its tier. -/
structure Dated (passes : Nat) (diary : List Arrival)
    (manager : TierManager κ) : Prop where
  keyed : manager.Keyed
  tick : manager.tick = UInt64.ofNat passes
  arrived : ∀ id c, manager.find id = some c →
    ∃ tick ≤ passes, lastArrival diary id = some ⟨id, c.tier, tick⟩ ∧
      c.arrivedTick = UInt64.ofNat tick

theorem dated_create (model : CostModel) (deviceCap hostCap : UInt64) :
    Dated 0 [] (create model deviceCap hostCap : TierManager κ) := by
  refine ⟨List.nodup_nil, rfl, ?_⟩
  intro id c found
  cases found

/-- A change of one column that moves it nowhere. -/
theorem Dated.update {passes : Nat} {diary : List Arrival}
    {manager : TierManager κ} (dated : Dated passes diary manager)
    (id : UInt64) {change : TierEntry κ → TierEntry κ}
    (keepsId : ∀ c, c.id = id → (change c).id = c.id)
    (stays : ∀ c, (change c).tier = c.tier ∧
      (change c).arrivedTick = c.arrivedTick) :
    Dated passes diary (manager.update id change) := by
  refine ⟨dated.keyed.update id keepsId, dated.tick, ?_⟩
  intro other c found
  rw [find_update manager id other keepsId] at found
  obtain ⟨old, there, same⟩ := Option.map_eq_some_iff.mp found
  obtain ⟨tick, earlier, last, when⟩ := dated.arrived other old there
  refine ⟨tick, earlier, ?_⟩
  rw [← same]
  split
  · rw [(stays old).1, (stays old).2]
    exact ⟨last, when⟩
  · exact ⟨last, when⟩

theorem Dated.moveTo {passes : Nat} {diary : List Arrival}
    {manager : TierManager κ} (dated : Dated passes diary manager)
    (id : UInt64) (dest : MemorySpace) :
    Dated passes (⟨id, dest, passes⟩ :: diary) (manager.moveTo id dest) := by
  refine ⟨dated.keyed.moveTo id dest, dated.tick, ?_⟩
  intro other c found
  rw [find_moveTo] at found
  obtain ⟨old, there, same⟩ := Option.map_eq_some_iff.mp found
  by_cases own : other = id
  · rw [if_pos own] at same
    subst same
    refine ⟨passes, Nat.le_refl passes, ?_, dated.tick⟩
    simp [lastArrival, own]
  · rw [if_neg own] at same
    subst same
    obtain ⟨tick, earlier, last, when⟩ := dated.arrived other old there
    refine ⟨tick, earlier, ?_, when⟩
    rw [← last]
    simp [lastArrival, Ne.symm own]

theorem Dated.perm {passes : Nat} {diary : List Arrival}
    {manager : TierManager κ} (dated : Dated passes diary manager)
    {cols : List (TierEntry κ)} (order : manager.cols.Perm cols) :
    Dated passes diary { manager with cols := cols } := by
  have keyed : ({ manager with cols := cols } : TierManager κ).Keyed :=
    (order.map _).nodup_iff.mp dated.keyed
  refine ⟨keyed, dated.tick, ?_⟩
  intro id c found
  obtain ⟨member, own⟩ := find_mem found
  have there := dated.keyed.find (order.mem_iff.mpr member)
  rw [own] at there
  exact dated.arrived id c there

section
variable [CostArith κ]

theorem find_registerColumn (manager : TierManager κ) (id other : UInt64)
    (bytes : Nat) (tier : MemorySpace) {c : TierEntry κ}
    (found : (manager.registerColumn id bytes tier).find other = some c) :
    (other = id ∧ c.tier = tier ∧ c.arrivedTick = manager.tick) ∨
      (other ≠ id ∧ manager.find other = some c) := by
  unfold registerColumn at found
  simp only at found
  split at found
  · rw [find_update manager id other (fun c own => own.symm)] at found
    obtain ⟨old, there, same⟩ := Option.map_eq_some_iff.mp found
    by_cases own : other = id
    · rw [if_pos own] at same
      subst same
      exact .inl ⟨own, rfl, rfl⟩
    · rw [if_neg own] at same
      subst same
      exact .inr ⟨own, there⟩
  · obtain ⟨member, own⟩ := find_mem found
    unfold find at found
    rw [List.find?_append, Option.or_eq_some_iff] at found
    rcases found with old | ⟨absent, new⟩
    · refine .inr ⟨?_, old⟩
      intro same
      rename_i missing
      rw [← same] at missing
      exact missing (by rw [find, old]; rfl)
    · simp only [List.find?_singleton] at new
      split at new
      · rename_i same
        cases new
        exact .inl ⟨(beq_iff_eq.mp same).symm, rfl, rfl⟩
      · cases new

theorem Dated.registerColumn {passes : Nat} {diary : List Arrival}
    {manager : TierManager κ} (dated : Dated passes diary manager)
    (id : UInt64) (bytes : Nat) (tier : MemorySpace) :
    Dated passes (⟨id, tier, passes⟩ :: diary)
      (manager.registerColumn id bytes tier) := by
  refine ⟨dated.keyed.registerColumn id bytes tier, ?_, ?_⟩
  · unfold TierManager.registerColumn
    simp only
    split
    · exact dated.tick
    · exact dated.tick
  · intro other c found
    rcases find_registerColumn manager id other bytes tier found with
      ⟨own, there, now⟩ | ⟨different, old⟩
    · refine ⟨passes, Nat.le_refl passes, ?_, now.trans dated.tick⟩
      rw [there]
      simp [lastArrival, own]
    · obtain ⟨tick, earlier, last, when⟩ := dated.arrived other c old
      refine ⟨tick, earlier, ?_, when⟩
      rw [← last]
      simp [lastArrival, Ne.symm different]

theorem Dated.age {passes : Nat} {diary : List Arrival}
    {manager : TierManager κ} (dated : Dated passes diary manager) :
    Dated (passes + 1) diary manager.age := by
  refine ⟨dated.keyed.age, ?_, ?_⟩
  · rw [UInt64.ofNat_add, ← dated.tick]
    rfl
  · intro id c found
    unfold TierManager.age find at found
    rw [List.find?_map] at found
    obtain ⟨old, there, same⟩ := Option.map_eq_some_iff.mp found
    obtain ⟨tick, earlier, last, when⟩ := dated.arrived id old there
    subst same
    exact ⟨tick, Nat.le_succ_of_le earlier, last, when⟩

end

/-! ## Plans -/

/-- A decision that can be carried out where its column is, and demotes only a
column that has been there for a while. -/
structure Executable (tick : Nat) (diary : List Arrival)
    (place : Option Place) (decision : MigrationDecision) : Prop where
  source : place.map Prod.fst = some decision.source
  adjacent : Adjacent decision.source decision.dest
  stayed : Demotes decision.source decision.dest →
    ∃ arrived, lastArrival diary decision.columnId =
        some ⟨decision.columnId, decision.source, arrived⟩ ∧
      arrived + MIN_RESIDENCY_TICKS.toNat ≤ tick

theorem Dated.stayed {passes : Nat} {diary : List Arrival}
    {manager : TierManager κ} (dated : Dated passes diary manager)
    {id : UInt64} {c : TierEntry κ} (found : manager.find id = some c)
    (evictable : c.Evictable manager.tick) :
    ∃ arrived, lastArrival diary id = some ⟨id, c.tier, arrived⟩ ∧
      arrived + MIN_RESIDENCY_TICKS.toNat ≤ passes := by
  obtain ⟨tick, earlier, last, when⟩ := dated.arrived id c found
  refine ⟨tick, last, ?_⟩
  unfold TierEntry.Evictable at evictable
  rw [dated.tick, when, ← UInt64.ofNat_sub earlier,
    UInt64.lt_iff_toNat_lt, UInt64.toNat_ofNat'] at evictable
  have least : (passes - tick) % 2 ^ 64 ≤ passes - tick := Nat.mod_le _ _
  omega

theorem settle_cons (manager : TierManager κ) (id : UInt64)
    (source dest : MemorySpace) (plan : List MigrationDecision)
    (other : UInt64) :
    settle (⟨id, source, dest⟩ :: plan) other (manager.place other) =
      settle plan other ((manager.moveTo id dest).place other) := by
  rw [← settle_move manager id source dest, ← settle_append]
  rfl

theorem arrivals_cons (tick : Nat) (id : UInt64) (source dest : MemorySpace)
    (plan : List MigrationDecision) (diary : List Arrival) :
    arrivals tick (⟨id, source, dest⟩ :: plan) ++ diary =
      arrivals tick plan ++ ⟨id, dest, tick⟩ :: diary := by
  simp [arrivals]

theorem Moves.dated {passes : Nat} {manager after : TierManager κ}
    {plan : List MigrationDecision} (moves : Moves manager plan after)
    {diary : List Arrival} (dated : Dated passes diary manager) :
    Dated passes (arrivals passes plan ++ diary) after := by
  induction moves generalizing diary with
  | done manager => exact dated
  | promote _ _ _ induction =>
      rw [arrivals_cons]
      exact induction (dated.moveTo _ _)
  | demote _ _ _ _ induction =>
      rw [arrivals_cons]
      exact induction (dated.moveTo _ _)

/-- Every decision of a plan finds its column where it expects it. -/
theorem Moves.executable {passes : Nat} {manager after : TierManager κ}
    {plan : List MigrationDecision} (moves : Moves manager plan after)
    {diary : List Arrival} (dated : Dated passes diary manager)
    {before later : List MigrationDecision} {decision : MigrationDecision}
    (split : plan = before ++ decision :: later) :
    Executable passes (arrivals passes before ++ diary)
      (settle before decision.columnId (manager.place decision.columnId))
      decision := by
  induction moves generalizing diary before with
  | done manager => simp at split
  | @promote manager after c plan found up rest induction =>
      cases before with
      | nil =>
          cases split
          refine ⟨?_, .inr (demotes_fasterTier up), ?_⟩
          · simp [settle, place, found]
          · intro down
            exact absurd down (demotes_fasterTier up).asymm
      | cons first before =>
          cases split
          rw [settle_cons, arrivals_cons]
          exact induction (dated.moveTo _ _) rfl
  | @demote manager after c plan found bounded evictable rest induction =>
      cases before with
      | nil =>
          cases split
          refine ⟨?_, .inl (demotes_slowerTier bounded), ?_⟩
          · simp [settle, place, found]
          · intro _
            exact dated.stayed found evictable
      | cons first before =>
          cases split
          rw [settle_cons, arrivals_cons]
          exact induction (dated.moveTo _ _) rfl

/-! ## Runs -/

section
variable [CostArith κ]

/-- The states the public calls reach, with the number of passes so far and the
diary. -/
inductive Runs (model : CostModel) (deviceCap hostCap : UInt64) :
    Nat → List Arrival → TierManager κ → Prop where
  | create : Runs model deviceCap hostCap 0 []
      (create model deviceCap hostCap)
  | registerColumn {passes : Nat} {diary : List Arrival}
      {manager : TierManager κ}
      (before : Runs model deviceCap hostCap passes diary manager)
      (id bytes : UInt64) (tier : MemorySpace) :
      Runs model deviceCap hostCap passes (⟨id, tier, passes⟩ :: diary)
        (manager.registerColumn id bytes.toNat tier)
  | updateBytes {passes : Nat} {diary : List Arrival}
      {manager : TierManager κ}
      (before : Runs model deviceCap hostCap passes diary manager)
      (id bytes : UInt64) :
      Runs model deviceCap hostCap passes diary
        (manager.updateBytes id bytes.toNat)
  | recordAccess {passes : Nat} {diary : List Arrival}
      {manager : TierManager κ}
      (before : Runs model deviceCap hostCap passes diary manager)
      (id bytes : UInt64) :
      Runs model deviceCap hostCap passes diary
        (manager.recordAccess id bytes.toNat)
  | rebalance {passes : Nat} {diary : List Arrival} {manager : TierManager κ}
      (before : Runs model deviceCap hostCap passes diary manager) :
      Runs model deviceCap hostCap (passes + 1)
        (arrivals (passes + 1) manager.rebalance.1 ++ diary)
        manager.rebalance.2
  | reorder {passes : Nat} {diary : List Arrival} {manager : TierManager κ}
      (before : Runs model deviceCap hostCap passes diary manager)
      {cols : List (TierEntry κ)} (order : manager.cols.Perm cols) :
      Runs model deviceCap hostCap passes diary
        { manager with cols := cols }

variable {model : CostModel} {deviceCap hostCap : UInt64} {passes : Nat}
  {diary : List Arrival} {manager : TierManager κ}

theorem Runs.dated (runs : Runs model deviceCap hostCap passes diary manager) :
    Dated passes diary manager := by
  induction runs with
  | create => exact dated_create model deviceCap hostCap
  | registerColumn _ id bytes tier dated =>
      exact dated.registerColumn id bytes.toNat tier
  | updateBytes _ id bytes dated =>
      exact dated.update id (fun _ _ => rfl) fun _ => ⟨rfl, rfl⟩
  | recordAccess _ id bytes dated =>
      exact dated.update id (fun _ _ => rfl) fun _ => ⟨rfl, rfl⟩
  | rebalance _ dated => exact (rebalance_moves dated.keyed).dated dated.age
  | reorder _ order dated => exact dated.perm order

/-- The plan of a pass in any run can be carried out decision by decision, by
moves between adjacent tiers that demote nothing too fresh, and takes every
column to where the brain then has it. -/
theorem plan_executable
    (runs : Runs model deviceCap hostCap passes diary manager) :
    (∀ before decision later,
      manager.rebalance.1 = before ++ decision :: later →
      Executable (passes + 1) (arrivals (passes + 1) before ++ diary)
        (settle before decision.columnId (manager.place decision.columnId))
        decision) ∧
    ∀ id, manager.rebalance.2.tierOf id =
      (settle manager.rebalance.1 id (manager.place id)).map Prod.fst := by
  have dated := runs.dated
  refine ⟨?_, ?_⟩
  · intro before decision later split
    rw [← place_age]
    exact (rebalance_moves dated.keyed).executable dated.age split
  · intro id
    rw [tierOf_eq, rebalance_tracks]

end

/-- Two columns on a device tier with room for one. -/
def crowded : TierManager ℚ :=
  ((create { unified := false } 2000000 4000000).registerColumn
    1 2000000 .DEVICE).registerColumn 2 2000000 .DEVICE

/-- The first pass finds both of them too fresh. -/
theorem runs_crowded : Runs { unified := false } 2000000 4000000 1
    [⟨2, .DEVICE, 0⟩, ⟨1, .DEVICE, 0⟩] crowded.rebalance.2 := by
  have nothing : crowded.rebalance.1 = [] := by decide +kernel
  have runs : Runs { unified := false } 2000000 4000000 1
      (arrivals 1 crowded.rebalance.1 ++
        [⟨2, .DEVICE, 0⟩, ⟨1, .DEVICE, 0⟩]) crowded.rebalance.2 :=
    .rebalance (.registerColumn (.registerColumn .create 1 2000000 .DEVICE)
      2 2000000 .DEVICE)
  rw [nothing] at runs
  exact runs

/-- The next pass demotes one of them. -/
theorem plan_executable_demotion :
    crowded.rebalance.2.rebalance.1 = [⟨1, .DEVICE, .HOST⟩] ∧
    Executable 2 [⟨2, .DEVICE, 0⟩, ⟨1, .DEVICE, 0⟩]
      (crowded.rebalance.2.place 1) ⟨1, .DEVICE, .HOST⟩ := by
  have plan : crowded.rebalance.2.rebalance.1 = [⟨1, .DEVICE, .HOST⟩] := by
    decide +kernel
  exact ⟨plan, (plan_executable runs_crowded).1 [] _ [] plan⟩

end TierManager

end MatrixDB
