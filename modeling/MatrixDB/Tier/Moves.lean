import MatrixDB.Tier.Placement
import Mathlib.Data.List.Nodup

/-!
# The moves a plan is made of

Whatever a pass of the brain does, it does by moves of two kinds: a column is
promoted to the next faster tier, or a resident past its minimum residency is
demoted to the next slower one.
-/

namespace MatrixDB

open CostArith

variable {κ : Type}

/-- Past its minimum residency. -/
def TierEntry.Evictable (tick : UInt64) (c : TierEntry κ) : Prop :=
  ¬ tick - c.arrivedTick < MIN_RESIDENCY_TICKS

theorem fasterTier_slowerTier {tier : MemorySpace}
    (bounded : tier = .DEVICE ∨ tier = .HOST) :
    fasterTier (slowerTier tier) = tier := by
  rcases bounded with device | host
  · rw [device]
    rfl
  · rw [host]
    rfl

theorem slowerTier_ne {tier : MemorySpace}
    (bounded : tier = .DEVICE ∨ tier = .HOST) : slowerTier tier ≠ tier := by
  rcases bounded with device | host
  · rw [device]
    decide
  · rw [host]
    decide

theorem bounded_fasterTier {tier : MemorySpace}
    (up : fasterTier tier ≠ tier) :
    fasterTier tier = .DEVICE ∨ fasterTier tier = .HOST := by
  cases tier with
  | HOST => exact .inl rfl
  | COLD => exact .inr rfl
  | DEVICE => exact absurd rfl up
  | UNIFIED => exact absurd rfl up

namespace TierManager

/-! ## Columns by their ids -/

/-- The keys of the map. -/
def Keyed (manager : TierManager κ) : Prop :=
  (manager.cols.map fun c => c.id).Nodup

theorem find_mem {manager : TierManager κ} {id : UInt64} {c : TierEntry κ}
    (found : manager.find id = some c) : c ∈ manager.cols ∧ c.id = id := by
  refine ⟨List.mem_of_find?_eq_some found, ?_⟩
  simpa using List.find?_some found

theorem Keyed.find {manager : TierManager κ} (keyed : manager.Keyed)
    {c : TierEntry κ} (member : c ∈ manager.cols) :
    manager.find c.id = some c := by
  cases found : manager.find c.id with
  | none =>
      have absent := List.find?_eq_none.mp found c member
      simp at absent
  | some other =>
      obtain ⟨otherMember, own⟩ := find_mem found
      rw [List.inj_on_of_nodup_map keyed otherMember member own]

theorem ids_update (manager : TierManager κ) (id : UInt64)
    {change : TierEntry κ → TierEntry κ}
    (keepsId : ∀ c, c.id = id → (change c).id = c.id) :
    (manager.update id change).cols.map (fun c => c.id) =
      manager.cols.map fun c => c.id := by
  unfold update
  rw [List.map_map]
  apply List.map_congr_left
  intro c _
  by_cases own : c.id = id
  · simp [own, keepsId c own]
  · simp [own]

theorem Keyed.update {manager : TierManager κ} (keyed : manager.Keyed)
    (id : UInt64) {change : TierEntry κ → TierEntry κ}
    (keepsId : ∀ c, c.id = id → (change c).id = c.id) :
    (manager.update id change).Keyed := by
  rw [Keyed, ids_update manager id keepsId]
  exact keyed

theorem Keyed.moveTo {manager : TierManager κ} (keyed : manager.Keyed)
    (id : UInt64) (dest : MemorySpace) : (manager.moveTo id dest).Keyed :=
  keyed.update id fun _ _ => rfl

theorem find_moveTo (manager : TierManager κ) (id other : UInt64)
    (dest : MemorySpace) :
    (manager.moveTo id dest).find other =
      (manager.find other).map fun c =>
        if other = id then
          { c with tier := dest, arrivedTick := manager.tick }
        else c :=
  find_update manager id other fun _ _ => rfl

theorem find_moveTo_ne (manager : TierManager κ) {id other : UInt64}
    (different : other ≠ id) (dest : MemorySpace) :
    (manager.moveTo id dest).find other = manager.find other := by
  rw [find_moveTo]
  simp only [if_neg different, Option.map_id']

section
variable [CostArith κ]

theorem Keyed.registerColumn {manager : TierManager κ}
    (keyed : manager.Keyed) (id : UInt64) (bytes : Nat)
    (tier : MemorySpace) : (manager.registerColumn id bytes tier).Keyed := by
  unfold TierManager.registerColumn
  simp only
  split
  · apply keyed.update
    intro c own
    exact own.symm
  · rename_i absent
    have fresh : id ∉ manager.cols.map fun c => c.id := by
      intro member
      obtain ⟨c, there, own⟩ := List.mem_map.mp member
      apply absent
      rw [← own, keyed.find there]
      rfl
    rw [Keyed, List.map_append]
    apply List.Nodup.append keyed (List.nodup_singleton id)
    simpa using fresh

theorem Keyed.age {manager : TierManager κ} (keyed : manager.Keyed) :
    manager.age.Keyed := by
  have same : manager.age.cols.map (fun c => c.id) =
      manager.cols.map fun c => c.id := by
    unfold TierManager.age
    rw [List.map_map]
    rfl
  rw [Keyed, same]
  exact keyed

/-! ## The victim -/

/-- The loop that looks for a victim: what it has chosen is a resident past its
minimum residency, and if it has chosen nothing then every such resident scored
too high. -/
theorem victimLoop (tick : UInt64) (tier : MemorySpace)
    (cols : List (TierEntry κ)) (worst : κ × Option (TierEntry κ)) :
    let chosen := (cols.foldl
      (fun (worst : κ × Option (TierEntry κ)) c =>
        if c.tier ≠ tier then worst
        else if tick - c.arrivedTick < MIN_RESIDENCY_TICKS then worst
        else if less c.keepScore worst.1 then (c.keepScore, some c)
        else worst) worst).2
    (∀ c, chosen = some c → worst.2 = some c ∨
      (c ∈ cols ∧ c.tier = tier ∧ c.Evictable tick)) ∧
    (chosen = none → worst.2 = none ∧ ∀ c ∈ cols, c.tier = tier →
      c.Evictable tick → less c.keepScore worst.1 = false) := by
  induction cols generalizing worst with
  | nil => exact ⟨fun c same => .inl same, fun same => ⟨same, by simp⟩⟩
  | cons head cols induction =>
      have skip : (head.tier = tier → head.Evictable tick →
            less head.keepScore worst.1 = false) →
          ∀ chosen : Option (TierEntry κ),
          ((∀ c, chosen = some c → worst.2 = some c ∨
              (c ∈ cols ∧ c.tier = tier ∧ c.Evictable tick)) ∧
            (chosen = none → worst.2 = none ∧ ∀ c ∈ cols, c.tier = tier →
              c.Evictable tick → less c.keepScore worst.1 = false)) →
          (∀ c, chosen = some c → worst.2 = some c ∨
              (c ∈ head :: cols ∧ c.tier = tier ∧ c.Evictable tick)) ∧
            (chosen = none → worst.2 = none ∧
              ∀ c ∈ head :: cols, c.tier = tier → c.Evictable tick →
                less c.keepScore worst.1 = false) := by
        intro spared chosen rest
        refine ⟨?_, ?_⟩
        · intro c same
          rcases rest.1 c same with before | ⟨member, eligible⟩
          · exact .inl before
          · exact .inr ⟨List.mem_cons_of_mem head member, eligible⟩
        · intro same
          obtain ⟨nothing, others⟩ := rest.2 same
          refine ⟨nothing, ?_⟩
          intro c member
          rcases List.mem_cons.mp member with first | later
          · subst first
            exact spared
          · exact others c later
      rw [List.foldl_cons]
      split
      · rename_i elsewhere
        exact skip (fun own => absurd own elsewhere) _ (induction worst)
      · rename_i resident
        split
        · rename_i fresh
          exact skip (fun _ ripe => absurd fresh ripe) _ (induction worst)
        · rename_i ripe
          split
          · obtain ⟨found, nothing⟩ := induction (head.keepScore, some head)
            refine ⟨?_, ?_⟩
            · intro c same
              rcases found c same with first | ⟨member, eligible⟩
              · cases first
                exact .inr ⟨List.mem_cons_self, not_not.mp resident, ripe⟩
              · exact .inr ⟨List.mem_cons_of_mem head member, eligible⟩
            · intro same
              cases (nothing same).1
          · rename_i high
            exact skip (fun _ _ => Bool.eq_false_iff.mpr high) _
              (induction worst)

theorem pickVictim_eq_some {manager : TierManager κ} {tier : MemorySpace}
    {victim : TierEntry κ} (picked : manager.pickVictim tier = some victim) :
    victim ∈ manager.cols ∧ victim.tier = tier ∧
      victim.Evictable manager.tick := by
  have loop := (victimLoop manager.tick tier manager.cols
    (fraction (10 ^ 301) 1, none)).1 victim picked
  rcases loop with wrong | chosen
  · cases wrong
  · exact chosen

theorem pickVictim_eq_none {manager : TierManager κ} {tier : MemorySpace}
    (picked : manager.pickVictim tier = none) :
    ∀ c ∈ manager.cols, c.tier = tier → c.Evictable manager.tick →
      less c.keepScore (fraction (10 ^ 301) 1) = false :=
  ((victimLoop manager.tick tier manager.cols
    (fraction (10 ^ 301) 1, none)).2 picked).2

/-! ## One candidate -/

/-- What becomes of a candidate: nothing, a promotion into a tier with room for
it, or a swap with a resident of a full one. -/
inductive Promotion (manager : TierManager κ) (id : UInt64) :
    List MigrationDecision × TierManager κ → Prop where
  | waits : Promotion manager id ([], manager)
  | promotes {c : TierEntry κ} (found : manager.find id = some c)
      (fits : manager.capacityOf (fasterTier c.tier) = 0 ∨
        (manager.residentBytes (fasterTier c.tier) +
            UInt64.ofNat c.bytes).toNat ≤
          manager.capacityOf (fasterTier c.tier)) :
      Promotion manager id ([⟨c.id, c.tier, fasterTier c.tier⟩],
        manager.moveTo c.id (fasterTier c.tier))
  | swaps {c victim : TierEntry κ} (found : manager.find id = some c)
      (contended : ¬ (manager.capacityOf (fasterTier c.tier) = 0 ∨
        (manager.residentBytes (fasterTier c.tier) +
            UInt64.ofNat c.bytes).toNat ≤
          manager.capacityOf (fasterTier c.tier)))
      (picked : manager.pickVictim (fasterTier c.tier) = some victim)
      (worth : ¬ atMost c.promoteBenefit
        (fraction 3 2 * victim.keepScore))
      (fits : (manager.residentBytes (fasterTier c.tier) -
          UInt64.ofNat victim.bytes + UInt64.ofNat c.bytes).toNat ≤
        manager.capacityOf (fasterTier c.tier)) :
      Promotion manager id
        ([⟨victim.id, victim.tier, slowerTier (fasterTier c.tier)⟩,
            ⟨c.id, c.tier, fasterTier c.tier⟩],
          (manager.moveTo victim.id
            (slowerTier (fasterTier c.tier))).moveTo c.id
              (fasterTier c.tier))

theorem promoteOne_promotion (manager : TierManager κ) (id : UInt64) :
    Promotion manager id (manager.promoteOne id) := by
  unfold promoteOne
  split
  · exact .waits
  · rename_i c found
    simp only
    split
    · rename_i fits
      exact .promotes found fits
    · rename_i contended
      unfold trySwapPromote
      split
      · exact .waits
      · split
        · exact .waits
        · rename_i victim picked
          split
          · exact .waits
          · rename_i worth
            split
            · exact .waits
            · rename_i fits
              exact .swaps found contended picked worth (Nat.not_lt.mp fits)

end

/-! ## Moves -/

/-- Decisions that are made one after another. -/
inductive Moves : TierManager κ → List MigrationDecision → TierManager κ →
    Prop where
  | done (manager : TierManager κ) : Moves manager [] manager
  | promote {manager after : TierManager κ} {c : TierEntry κ}
      {plan : List MigrationDecision} (found : manager.find c.id = some c)
      (up : fasterTier c.tier ≠ c.tier)
      (rest : Moves (manager.moveTo c.id (fasterTier c.tier)) plan after) :
      Moves manager (⟨c.id, c.tier, fasterTier c.tier⟩ :: plan) after
  | demote {manager after : TierManager κ} {c : TierEntry κ}
      {plan : List MigrationDecision} (found : manager.find c.id = some c)
      (bounded : c.tier = .DEVICE ∨ c.tier = .HOST)
      (stayed : c.Evictable manager.tick)
      (rest : Moves (manager.moveTo c.id (slowerTier c.tier)) plan after) :
      Moves manager (⟨c.id, c.tier, slowerTier c.tier⟩ :: plan) after

theorem Moves.append {manager middle after : TierManager κ}
    {first second : List MigrationDecision}
    (one : Moves manager first middle) (two : Moves middle second after) :
    Moves manager (first ++ second) after := by
  induction one with
  | done manager => exact two
  | promote found up _ induction => exact .promote found up (induction two)
  | demote found bounded stayed _ induction =>
      exact .demote found bounded stayed (induction two)

theorem Moves.keyed {manager after : TierManager κ}
    {plan : List MigrationDecision} (moves : Moves manager plan after)
    (keyed : manager.Keyed) : after.Keyed := by
  induction moves with
  | done manager => exact keyed
  | promote _ _ _ induction => exact induction (keyed.moveTo _ _)
  | demote _ _ _ _ induction => exact induction (keyed.moveTo _ _)

/-- A column that can still be promoted. -/
def Promotable (manager : TierManager κ) (id : UInt64) : Prop :=
  ∀ c, manager.find id = some c → fasterTier c.tier ≠ c.tier

/-- The moves of a plan promote the columns it names or leave them where they
can be promoted again. -/
theorem Promotable.moveTo {manager : TierManager κ} {id other : UInt64}
    {dest : MemorySpace} (promotable : manager.Promotable other)
    (kept : other = id → fasterTier dest ≠ dest) :
    (manager.moveTo id dest).Promotable other := by
  intro c found
  rw [find_moveTo] at found
  obtain ⟨old, there, same⟩ := Option.map_eq_some_iff.mp found
  subst same
  split
  · rename_i own
    exact kept own
  · exact promotable old there

section
variable [CostArith κ]

theorem Promotion.moves {manager : TierManager κ} (keyed : manager.Keyed)
    {id : UInt64} (promotable : manager.Promotable id)
    {outcome : List MigrationDecision × TierManager κ}
    (promotion : Promotion manager id outcome) :
    Moves manager outcome.1 outcome.2 := by
  cases promotion with
  | waits => exact .done manager
  | @promotes c found fits =>
      have own := (find_mem found).2
      subst own
      exact .promote found (promotable c found) (.done _)
  | @swaps c victim found contended picked worth fits =>
      have own := (find_mem found).2
      subst own
      obtain ⟨member, tier, stayed⟩ := pickVictim_eq_some picked
      have up := promotable c found
      have foundVictim := keyed.find member
      have different : c.id ≠ victim.id := by
        intro same
        rw [same, foundVictim] at found
        cases found
        exact up tier.symm
      have still : (manager.moveTo victim.id
          (slowerTier (fasterTier c.tier))).find c.id = some c := by
        rw [find_moveTo_ne manager different, found]
      rw [← tier]
      rw [← tier] at still
      refine .demote foundVictim ?_ stayed ?_
      · rw [tier]
        exact bounded_fasterTier up
      · rw [tier] at still ⊢
        exact .promote still up (.done _)

/-- A candidate that is dealt with leaves the others promotable. -/
theorem Promotion.promotable {manager : TierManager κ}
    {id other : UInt64} (promotable : manager.Promotable id)
    {outcome : List MigrationDecision × TierManager κ}
    (promotion : Promotion manager id outcome) (different : other ≠ id)
    (before : manager.Promotable other) : outcome.2.Promotable other := by
  cases promotion with
  | waits => exact before
  | @promotes c found fits =>
      have own := (find_mem found).2
      apply before.moveTo
      intro same
      exact absurd (same.trans own) different
  | @swaps c victim found contended picked worth fits =>
      have own := (find_mem found).2
      have up := bounded_fasterTier (promotable c found)
      apply Promotable.moveTo
      · apply before.moveTo
        intro _
        rw [fasterTier_slowerTier up]
        exact (slowerTier_ne up).symm
      · intro same
        exact absurd (same.trans own) different

theorem promoteAll_moves {manager : TierManager κ} (keyed : manager.Keyed)
    {ids : List UInt64} (nodup : ids.Nodup)
    (promotable : ∀ id ∈ ids, manager.Promotable id) :
    Moves manager (manager.promoteAll ids).1 (manager.promoteAll ids).2 := by
  induction ids generalizing manager with
  | nil => exact .done manager
  | cons id ids induction =>
      obtain ⟨absent, later⟩ := List.nodup_cons.mp nodup
      have promotion := promoteOne_promotion manager id
      have own := promotable id List.mem_cons_self
      have first := promotion.moves keyed own
      refine first.append (induction (first.keyed keyed) later ?_)
      intro other member
      apply promotion.promotable own
      · intro same
        exact absent (same ▸ member)
      · exact promotable other (List.mem_cons_of_mem id member)

theorem candidates_nodup {manager : TierManager κ} (keyed : manager.Keyed) :
    manager.candidates.Nodup := by
  unfold candidates
  rw [(List.mergeSort_perm _ _).nodup_iff]
  exact keyed.sublist (List.filter_sublist.map _)

/-- A column already in the fastest tier it can have is no candidate. -/
theorem candidates_promotable {manager : TierManager κ}
    (keyed : manager.Keyed) :
    ∀ id ∈ manager.candidates, manager.Promotable id := by
  intro id candidate c found
  unfold candidates at candidate
  rw [List.mem_mergeSort] at candidate
  obtain ⟨chosen, member, own⟩ := List.mem_map.mp candidate
  obtain ⟨there, worth⟩ := List.mem_filter.mp member
  have same := keyed.find there
  rw [own, found] at same
  cases same
  intro top
  simp [TierEntry.shouldPromote, top] at worth

theorem evict_moves {tier : MemorySpace} (bounded : tier = .DEVICE ∨
    tier = .HOST) (cap rounds : Nat) {manager : TierManager κ}
    (keyed : manager.Keyed) :
    Moves manager (evict tier cap rounds manager).1
      (evict tier cap rounds manager).2 := by
  induction rounds generalizing manager with
  | zero => exact .done manager
  | succ rounds induction =>
      unfold evict
      split
      · exact .done manager
      · split
        · exact .done manager
        · rename_i victim picked
          obtain ⟨member, own, stayed⟩ := pickVictim_eq_some picked
          refine .demote (keyed.find member) ?_ stayed
            (induction (keyed.moveTo _ _))
          rw [own]
          exact bounded

theorem evictTier_moves {tier : MemorySpace} (bounded : tier = .DEVICE ∨
    tier = .HOST) {manager : TierManager κ} (keyed : manager.Keyed) :
    Moves manager (manager.evictTier tier).1 (manager.evictTier tier).2 := by
  unfold evictTier
  split
  · exact .done manager
  · exact evict_moves bounded _ _ keyed

theorem rebalance_moves {manager : TierManager κ} (keyed : manager.Keyed) :
    Moves manager.age manager.rebalance.1 manager.rebalance.2 := by
  have aged := keyed.age
  have promoted := promoteAll_moves aged (candidates_nodup aged)
    (candidates_promotable aged)
  have offDevice := promoted.append
    (evictTier_moves (.inl rfl) (promoted.keyed aged))
  exact offDevice.append
    (evictTier_moves (.inr rfl) (offDevice.keyed aged))

end

end TierManager

end MatrixDB
