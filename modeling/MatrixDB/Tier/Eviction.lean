import MatrixDB.Tier.Runs
import Mathlib.Data.List.Count
import Mathlib.Data.Nat.Cast.Basic

/-!
# The eviction loops end

A loop evicts while its tier is over capacity and a resident can be evicted.
Every round takes a column out of the tier, and a column that has just been
evicted is too fresh to be evicted again in the same pass.
-/

namespace MatrixDB

open CostArith

variable {κ : Type}

namespace TierManager

theorem not_evictable_arrived (tick : UInt64) (c : TierEntry κ)
    (now : c.arrivedTick = tick) : ¬ c.Evictable tick := by
  unfold TierEntry.Evictable
  rw [now, UInt64.sub_self]
  decide

/-! ## Moves among the other columns -/

/-- Where a column comes from. -/
theorem mem_moveTo {manager : TierManager κ} {id : UInt64}
    {dest : MemorySpace} {c : TierEntry κ}
    (member : c ∈ (manager.moveTo id dest).cols) :
    ∃ old ∈ manager.cols, c.id = old.id ∧
      ((old.id = id ∧
          c = { old with tier := dest, arrivedTick := manager.tick }) ∨
        (old.id ≠ id ∧ c = old)) := by
  obtain ⟨old, there, same⟩ := List.mem_map.mp member
  refine ⟨old, there, ?_⟩
  by_cases own : old.id = id
  · rw [if_pos own] at same
    subst same
    exact ⟨rfl, .inl ⟨own, rfl⟩⟩
  · rw [if_neg own] at same
    subst same
    exact ⟨rfl, .inr ⟨own, rfl⟩⟩

/-- A move between two tiers leaves the residents of a third one alone. -/
theorem residents_moveTo {manager : TierManager κ} (keyed : manager.Keyed)
    {c : TierEntry κ} (member : c ∈ manager.cols) {dest tier : MemorySpace}
    (off : c.tier ≠ tier) (past : dest ≠ tier) :
    (manager.moveTo c.id dest).cols.filter (fun c => c.tier = tier) =
      manager.cols.filter fun c => c.tier = tier := by
  unfold moveTo update
  rw [List.filter_map]
  have same : manager.cols.filter
      ((fun c => decide (c.tier = tier)) ∘ fun other =>
        if other.id = c.id then
          { other with tier := dest, arrivedTick := manager.tick }
        else other) =
      manager.cols.filter fun c => c.tier = tier := by
    apply List.filter_congr
    intro other there
    by_cases own : other.id = c.id
    · have equal := List.inj_on_of_nodup_map keyed there member own
      simp [equal, off, past]
    · simp [own]
  rw [same]
  refine (List.map_congr_left ?_).trans (List.map_id _)
  intro other kept
  obtain ⟨there, here⟩ := List.mem_filter.mp kept
  have different : other.id ≠ c.id := by
    intro own
    have equal := List.inj_on_of_nodup_map keyed there member own
    subst equal
    exact off (of_decide_eq_true here)
  simp [different]

/-- A column that moves out of a tier is one resident less. -/
theorem residents_lt {manager : TierManager κ} {c : TierEntry κ}
    (member : c ∈ manager.cols) {dest : MemorySpace} (leaves : dest ≠ c.tier) :
    (manager.moveTo c.id dest).cols.countP (fun other => other.tier = c.tier) <
      manager.cols.countP fun other => other.tier = c.tier := by
  unfold moveTo update
  rw [List.countP_map]
  have fewer : manager.cols.countP
      ((fun other => decide (other.tier = c.tier)) ∘ fun other =>
        if other.id = c.id then
          { other with tier := dest, arrivedTick := manager.tick }
        else other) =
      (manager.cols.filter fun other => other.tier = c.tier).countP
        fun other => other.id ≠ c.id := by
    rw [List.countP_filter]
    apply List.countP_congr
    intro other _
    by_cases own : other.id = c.id
    · simp [own, leaves]
    · simp [own]
  rw [fewer]
  apply lt_of_lt_of_eq _ List.countP_eq_length_filter.symm
  rw [List.countP_lt_length_iff]
  exact ⟨c, List.mem_filter.mpr ⟨member, by simp⟩, by simp⟩

/-- A column that the loops can still evict. -/
def Ripe (manager : TierManager κ) (id : UInt64) : Prop :=
  ∃ c ∈ manager.cols, c.id = id ∧ c.Evictable manager.tick

theorem Ripe.of_moveTo {manager : TierManager κ} {id other : UInt64}
    {dest : MemorySpace} (ripe : (manager.moveTo id dest).Ripe other) :
    manager.Ripe other ∧ other ≠ id := by
  obtain ⟨c, member, own, stayed⟩ := ripe
  obtain ⟨old, there, same, moved | kept⟩ := mem_moveTo member
  · obtain ⟨_, equal⟩ := moved
    subst equal
    exact absurd stayed (not_evictable_arrived _ _ rfl)
  · obtain ⟨different, equal⟩ := kept
    subst equal
    exact ⟨⟨c, there, own, stayed⟩, own ▸ different⟩

/-! ## The loops -/

section
variable [CostArith κ]

/-- One round of the loop; nothing when the loop is left. -/
def evictRound (tier : MemorySpace) (cap : Nat) (manager : TierManager κ) :
    Option (MigrationDecision × TierManager κ) :=
  if (manager.residentBytes tier).toNat ≤ cap then none
  else
    (manager.pickVictim tier).map fun victim =>
      (⟨victim.id, victim.tier, slowerTier victim.tier⟩,
        manager.moveTo victim.id (slowerTier victim.tier))

/-- The loop without a bound on its rounds, and what it has done when it is
left. -/
inductive EvictLoop (tier : MemorySpace) (cap : Nat) :
    TierManager κ → List MigrationDecision → TierManager κ → Prop where
  | left {manager : TierManager κ} (stops : evictRound tier cap manager = none) :
      EvictLoop tier cap manager [] manager
  | round {manager next after : TierManager κ} {decision : MigrationDecision}
      {plan : List MigrationDecision}
      (evicts : evictRound tier cap manager = some (decision, next))
      (rest : EvictLoop tier cap next plan after) :
      EvictLoop tier cap manager (decision :: plan) after

theorem evictRound_eq_some {tier : MemorySpace} {cap : Nat}
    {manager next : TierManager κ} {decision : MigrationDecision}
    (evicts : evictRound tier cap manager = some (decision, next)) :
    ∃ victim ∈ manager.cols, victim.tier = tier ∧
      victim.Evictable manager.tick ∧
      decision = ⟨victim.id, victim.tier, slowerTier victim.tier⟩ ∧
      next = manager.moveTo victim.id (slowerTier victim.tier) := by
  unfold evictRound at evicts
  split at evicts
  · cases evicts
  · obtain ⟨victim, picked, same⟩ := Option.map_eq_some_iff.mp evicts
    cases same
    obtain ⟨member, own, ripe⟩ := pickVictim_eq_some picked
    exact ⟨victim, member, own, ripe, rfl, rfl⟩

/-- As many rounds as there are residents are enough. -/
theorem evict_loop {tier : MemorySpace} (bounded : tier = .DEVICE ∨
    tier = .HOST) (cap : Nat) {rounds : Nat} {manager : TierManager κ}
    (enough : manager.cols.countP (fun c => c.tier = tier) ≤ rounds) :
    EvictLoop tier cap manager (evict tier cap rounds manager).1
      (evict tier cap rounds manager).2 := by
  induction rounds generalizing manager with
  | zero =>
      have none : manager.cols.filter (fun c => c.tier = tier) = [] := by
        rw [← List.length_eq_zero_iff, ← List.countP_eq_length_filter]
        exact Nat.le_zero.mp enough
      apply EvictLoop.left
      rw [evictRound, residentBytes, none]
      exact if_pos (Nat.zero_le cap)
  | succ rounds induction =>
      unfold evict
      split
      · rename_i within
        exact .left (if_pos within)
      · rename_i full
        cases picked : manager.pickVictim tier with
        | none =>
            apply EvictLoop.left
            rw [evictRound, if_neg full, picked]
            rfl
        | some victim =>
            obtain ⟨member, own, _⟩ := pickVictim_eq_some picked
            have leaves : slowerTier victim.tier ≠ victim.tier := by
              rw [own]
              exact slowerTier_ne bounded
            have fewer := residents_lt member leaves
            rw [own] at fewer
            have evicts : evictRound tier cap manager =
                some (⟨victim.id, victim.tier, slowerTier victim.tier⟩,
                  manager.moveTo victim.id (slowerTier victim.tier)) := by
              rw [evictRound, if_neg full, picked]
              rfl
            apply EvictLoop.round evicts
            apply induction
            rw [own]
            omega

/-- A loop evicts a column at most once, and no column that the loop before it
has evicted. -/
theorem EvictLoop.once {tier : MemorySpace} {cap : Nat}
    {manager after : TierManager κ} {plan : List MigrationDecision}
    (loop : EvictLoop tier cap manager plan after) :
    (plan.map fun decision => decision.columnId).Nodup ∧
      (∀ decision ∈ plan, manager.Ripe decision.columnId) ∧
      ∀ id, after.Ripe id →
        manager.Ripe id ∧ id ∉ plan.map fun decision => decision.columnId := by
  induction loop with
  | left stops => exact ⟨List.nodup_nil, by simp, fun id ripe => ⟨ripe, by simp⟩⟩
  | @round manager next after decision plan evicts rest induction =>
      obtain ⟨victim, member, _, stayed, same, moved⟩ :=
        evictRound_eq_some evicts
      obtain ⟨nodup, ripe, later⟩ := induction
      subst same
      subst moved
      refine ⟨?_, ?_, ?_⟩
      · rw [List.map_cons, List.nodup_cons]
        refine ⟨?_, nodup⟩
        intro again
        obtain ⟨decision, inside, own⟩ := List.mem_map.mp again
        exact (ripe decision inside).of_moveTo.2 own
      · intro decision inside
        rcases List.mem_cons.mp inside with first | rest
        · subst first
          exact ⟨victim, member, rfl, stayed⟩
        · exact (ripe decision rest).of_moveTo.1
      · intro id still
        obtain ⟨before, absent⟩ := later id still
        obtain ⟨earlier, different⟩ := before.of_moveTo
        refine ⟨earlier, ?_⟩
        rw [List.map_cons, List.mem_cons, not_or]
        exact ⟨different, absent⟩

theorem EvictLoop.stops {tier : MemorySpace} {cap : Nat}
    {manager after : TierManager κ} {plan : List MigrationDecision}
    (loop : EvictLoop tier cap manager plan after) :
    (after.residentBytes tier).toNat ≤ cap ∨ after.pickVictim tier = none := by
  induction loop with
  | left stops =>
      unfold evictRound at stops
      split at stops
      · rename_i within
        exact .inl within
      · exact .inr (Option.map_eq_none_iff.mp stops)
  | round _ _ induction => exact induction

/-- The residents of a tier the loop neither evicts from nor moves to. -/
theorem EvictLoop.residents {tier other : MemorySpace} {cap : Nat}
    {manager after : TierManager κ} {plan : List MigrationDecision}
    (loop : EvictLoop tier cap manager plan after) (keyed : manager.Keyed)
    (off : tier ≠ other) (past : slowerTier tier ≠ other) :
    after.cols.filter (fun c => c.tier = other) =
      manager.cols.filter (fun c => c.tier = other) ∧
        after.tick = manager.tick := by
  induction loop with
  | left _ => exact ⟨rfl, rfl⟩
  | round evicts _ induction =>
      obtain ⟨victim, member, own, _, _, moved⟩ := evictRound_eq_some evicts
      subst moved
      obtain ⟨same, tick⟩ := induction (keyed.moveTo _ _)
      refine ⟨?_, tick⟩
      rw [same]
      apply residents_moveTo keyed member
      · rw [own]
        exact off
      · rw [own]
        exact past

end

/-! ## A whole pass -/

/-- What moves do not change. -/
structure Retains (before after : TierManager κ) : Prop where
  tick : after.tick = before.tick
  deviceCap : after.deviceCap = before.deviceCap
  hostCap : after.hostCap = before.hostCap
  cols : ∀ c ∈ after.cols, ∃ old ∈ before.cols,
    c = { old with tier := c.tier, arrivedTick := c.arrivedTick }

theorem Retains.capacityOf {before after : TierManager κ}
    (retains : Retains before after) (tier : MemorySpace) :
    after.capacityOf tier = before.capacityOf tier := by
  cases tier with
  | DEVICE => exact retains.deviceCap
  | HOST => exact retains.hostCap
  | COLD => rfl
  | UNIFIED => rfl

theorem retains_moveTo (manager : TierManager κ) (id : UInt64)
    (dest : MemorySpace) : Retains manager (manager.moveTo id dest) := by
  refine ⟨rfl, rfl, rfl, ?_⟩
  intro c member
  obtain ⟨old, there, _, ⟨_, moved⟩ | ⟨_, kept⟩⟩ := mem_moveTo member
  · exact ⟨old, there, by rw [moved]⟩
  · exact ⟨old, there, by rw [kept]⟩

theorem Retains.trans {before middle after : TierManager κ}
    (one : Retains before middle) (two : Retains middle after) :
    Retains before after := by
  refine ⟨two.tick.trans one.tick, two.deviceCap.trans one.deviceCap,
    two.hostCap.trans one.hostCap, ?_⟩
  intro c member
  obtain ⟨old, there, same⟩ := two.cols c member
  obtain ⟨oldest, first, equal⟩ := one.cols old there
  refine ⟨oldest, first, ?_⟩
  rw [same, equal]

theorem Moves.retains {manager after : TierManager κ}
    {plan : List MigrationDecision} (moves : Moves manager plan after) :
    Retains manager after := by
  induction moves with
  | done manager =>
      exact ⟨rfl, rfl, rfl, fun c member => ⟨c, member, rfl⟩⟩
  | promote _ _ _ induction => exact (retains_moveTo _ _ _).trans induction
  | demote _ _ _ _ induction => exact (retains_moveTo _ _ _).trans induction

section
variable [CostArith κ]

/-- A tier without a capacity is passed by, and the loop of any other one
ends. -/
inductive EvictsTier (tier : MemorySpace) (manager : TierManager κ) :
    List MigrationDecision → TierManager κ → Prop where
  | passedBy (unbounded : manager.capacityOf tier = 0) :
      EvictsTier tier manager [] manager
  | ended (bounded : manager.capacityOf tier ≠ 0)
      {plan : List MigrationDecision} {after : TierManager κ}
      (loop : EvictLoop tier (manager.capacityOf tier) manager plan after) :
      EvictsTier tier manager plan after

theorem evictTier_evicts {tier : MemorySpace} (bounded : tier = .DEVICE ∨
    tier = .HOST) (manager : TierManager κ) :
    EvictsTier tier manager (manager.evictTier tier).1
      (manager.evictTier tier).2 := by
  unfold evictTier
  split
  · rename_i unbounded
    exact .passedBy unbounded
  · rename_i capped
    exact .ended capped (evict_loop bounded _ List.countP_le_length)

theorem EvictsTier.once {tier : MemorySpace}
    {manager after : TierManager κ} {plan : List MigrationDecision}
    (evicts : EvictsTier tier manager plan after) :
    (plan.map fun decision => decision.columnId).Nodup ∧
      (∀ decision ∈ plan, manager.Ripe decision.columnId) ∧
      ∀ id, after.Ripe id →
        manager.Ripe id ∧ id ∉ plan.map fun decision => decision.columnId := by
  cases evicts with
  | passedBy _ => exact ⟨List.nodup_nil, by simp, fun id ripe => ⟨ripe, by simp⟩⟩
  | ended _ loop => exact loop.once

theorem EvictsTier.residents {tier other : MemorySpace}
    {manager after : TierManager κ} {plan : List MigrationDecision}
    (evicts : EvictsTier tier manager plan after) (keyed : manager.Keyed)
    (off : tier ≠ other) (past : slowerTier tier ≠ other) :
    after.cols.filter (fun c => c.tier = other) =
      manager.cols.filter (fun c => c.tier = other) ∧
        after.tick = manager.tick := by
  cases evicts with
  | passedBy _ => exact ⟨rfl, rfl⟩
  | ended _ loop => exact loop.residents keyed off past

end

/-- Within its capacity, or full of columns that have only just arrived. -/
def Relieved (manager : TierManager κ) (tier : MemorySpace) : Prop :=
  (manager.residentBytes tier).toNat ≤ manager.capacityOf tier ∨
    ∀ c ∈ manager.cols, c.tier = tier →
      manager.tick - c.arrivedTick < MIN_RESIDENCY_TICKS

theorem Relieved.of_residents {before after : TierManager κ}
    {tier : MemorySpace} (relieved : before.Relieved tier)
    (capacity : after.capacityOf tier = before.capacityOf tier)
    (tick : after.tick = before.tick)
    (same : after.cols.filter (fun c => c.tier = tier) =
      before.cols.filter fun c => c.tier = tier) : after.Relieved tier := by
  rcases relieved with within | fresh
  · left
    rw [residentBytes, same, capacity]
    exact within
  · right
    intro c member own
    have inside : c ∈ before.cols.filter fun c => c.tier = tier := by
      rw [← same]
      exact List.mem_filter.mpr ⟨member, by simpa using own⟩
    rw [tick]
    exact fresh c (List.mem_filter.mp inside).1 own

/-- Every score that a pass over the rationals can come to is below the value
the search for a victim starts from. -/
def ScoresBelow (manager : TierManager ℚ) : Prop :=
  ∀ c ∈ manager.age.cols, ∀ tier,
    ({ c with tier := tier } : TierEntry ℚ).keepScore < 10 ^ 301

theorem ScoresBelow.relieved {start manager after : TierManager ℚ}
    (scores : start.ScoresBelow) {plan : List MigrationDecision}
    {tier : MemorySpace} (capped : manager.capacityOf tier ≠ 0)
    (evicts : EvictsTier tier manager plan after)
    (retains : Retains start.age after)
    (kept : after.capacityOf tier = manager.capacityOf tier) :
    after.Relieved tier := by
  cases evicts with
  | passedBy unbounded => exact absurd unbounded capped
  | ended _ loop =>
      rcases loop.stops with within | nobody
      · left
        rw [kept]
        exact within
      · right
        intro c member own
        by_contra ripe
        have high := pickVictim_eq_none nobody c member own ripe
        obtain ⟨old, there, same⟩ := retains.cols c member
        have low := scores old there c.tier
        have score : ({ old with tier := c.tier } : TierEntry ℚ).keepScore =
            c.keepScore := by
          rw [same]
          rfl
        rw [score] at low
        have bound : (fraction (10 ^ 301) 1 : ℚ) = 10 ^ 301 := by
          simp only [fraction, Nat.cast_one, div_one, Nat.cast_pow,
            Nat.cast_ofNat]
        rw [bound] at high
        exact of_decide_eq_false high low

end TierManager

end MatrixDB
