import MatrixDB.Tier.Moves

/-!
# The device tier is inert on the CPU build

`CPUMockEngine` gives its manager a device capacity of one byte, so that no
column ever fits and the executor is never asked for a move it would abort on.
The argument needs two things of a column: its size is not one byte and fits
64 bits, and an empty column gains nothing by a move.
-/

namespace MatrixDB

open CostArith

/-- An arithmetic in which an empty column is never worth moving. -/
class SoundCost (κ : Type) extends CostArith κ where
  empty_stays : ∀ (model : CostModel) (c : TierEntry κ), c.bytes = 0 →
    c.tier = .HOST ∨ c.tier = .COLD → c.shouldPromote model = false

theorem estFutureScans_empty {κ : Type} [CostArith κ] {c : TierEntry κ}
    (empty : c.bytes = 0) : c.estFutureScans = 0 := by
  unfold TierEntry.estFutureScans
  rw [if_pos empty]

instance : SoundCost ℚ where
  empty_stays model c empty tier := by
    rcases tier with host | cold
    · simp [TierEntry.shouldPromote, TierEntry.promoteBenefit,
        TierEntry.promoteCost, CostModel.migrationUs, fasterTier, host, empty,
        estFutureScans_empty empty, fraction, ofSize, less]
    · simp [TierEntry.shouldPromote, TierEntry.promoteBenefit,
        TierEntry.promoteCost, CostModel.migrationUs, fasterTier, cold, empty,
        estFutureScans_empty empty, fraction, ofSize, less]

instance : SoundCost Float where
  empty_stays model c empty tier := by
    obtain ⟨unified⟩ := model
    rcases tier with host | cold
    · simp only [TierEntry.shouldPromote, TierEntry.promoteBenefit,
        TierEntry.promoteCost, fasterTier, host, empty,
        estFutureScans_empty empty]
      cases unified
      · decide +kernel
      · decide +kernel
    · simp only [TierEntry.shouldPromote, TierEntry.promoteBenefit,
        TierEntry.promoteCost, fasterTier, cold, empty,
        estFutureScans_empty empty]
      cases unified
      · decide +kernel
      · decide +kernel

/-- A tier the CPU build can hold. -/
def MemorySpace.Reachable (tier : MemorySpace) : Prop :=
  tier = .HOST ∨ tier = .COLD

theorem slowerTier_reachable {tier : MemorySpace} (reachable : tier.Reachable) :
    (slowerTier tier).Reachable := by
  rcases reachable with host | cold
  · subst host
    exact .inr rfl
  · subst cold
    exact .inr rfl

namespace TierManager

variable {κ : Type}

/-- What keeps the device tier empty. -/
structure Inert (manager : TierManager κ) : Prop where
  cap : manager.deviceCap = 1
  tiers : ∀ c ∈ manager.cols, c.tier.Reachable
  sizes : ∀ c ∈ manager.cols,
    c.bytes ≠ 1 ∧ c.bytes < 18446744073709551616
  ids : (manager.cols.map fun c => c.id).Nodup

theorem mem_update {manager : TierManager κ} {id : UInt64}
    {change : TierEntry κ → TierEntry κ} {c : TierEntry κ}
    (member : c ∈ (manager.update id change).cols) :
    ∃ old ∈ manager.cols, c = if old.id = id then change old else old := by
  obtain ⟨old, oldMember, equal⟩ := List.mem_map.mp member
  exact ⟨old, oldMember, equal.symm⟩

theorem inert_update {manager : TierManager κ} (inert : manager.Inert)
    (id : UInt64) {change : TierEntry κ → TierEntry κ}
    (keepsId : ∀ c, c.id = id → (change c).id = c.id)
    (tier : ∀ c ∈ manager.cols, (change c).tier.Reachable)
    (size : ∀ c ∈ manager.cols, (change c).bytes ≠ 1 ∧
      (change c).bytes < 18446744073709551616) :
    (manager.update id change).Inert where
  cap := inert.cap
  tiers c member := by
    obtain ⟨old, oldMember, equal⟩ := mem_update member
    subst equal
    split
    · exact tier old oldMember
    · exact inert.tiers old oldMember
  sizes c member := by
    obtain ⟨old, oldMember, equal⟩ := mem_update member
    subst equal
    split
    · exact size old oldMember
    · exact inert.sizes old oldMember
  ids := Keyed.update inert.ids id keepsId

theorem inert_updateBytes {manager : TierManager κ} (inert : manager.Inert)
    (id : UInt64) {bytes : Nat}
    (size : bytes ≠ 1 ∧ bytes < 18446744073709551616) :
    (manager.updateBytes id bytes).Inert :=
  inert_update inert id (fun _ _ => rfl) inert.tiers fun _ _ => size

theorem inert_recordAccess {manager : TierManager κ} (inert : manager.Inert)
    (id : UInt64) (bytes : Nat) : (manager.recordAccess id bytes).Inert :=
  inert_update inert id (fun _ _ => rfl) inert.tiers inert.sizes

theorem inert_moveTo {manager : TierManager κ} (inert : manager.Inert)
    (id : UInt64) {dest : MemorySpace} (reachable : dest.Reachable) :
    (manager.moveTo id dest).Inert :=
  inert_update inert id (fun _ _ => rfl) (fun _ _ => reachable) inert.sizes

theorem residentBytes_device {manager : TierManager κ}
    (inert : manager.Inert) : manager.residentBytes .DEVICE = 0 := by
  have none : manager.cols.filter (fun c => c.tier = .DEVICE) = [] := by
    rw [List.filter_eq_nil_iff]
    intro c member
    rcases inert.tiers c member with host | cold
    · simp [host]
    · simp [cold]
  rw [residentBytes, none]
  rfl

/-- A pass keeps the device tier inert, asks only for moves the executor can
make, and resizes nothing. -/
structure Passes (manager : TierManager κ)
    (outcome : List MigrationDecision × TierManager κ) : Prop where
  inert : outcome.2.Inert
  moves : ∀ decision ∈ outcome.1, decision.dest.Reachable
  sizes : outcome.2.cols.map (fun c => (c.id, c.bytes)) =
    manager.cols.map fun c => (c.id, c.bytes)

theorem Passes.none {manager : TierManager κ} (inert : manager.Inert) :
    Passes manager ([], manager) :=
  ⟨inert, by simp, rfl⟩

theorem Passes.append {manager : TierManager κ}
    {first second : List MigrationDecision × TierManager κ}
    (one : Passes manager first) (two : Passes first.2 second) :
    Passes manager (first.1 ++ second.1, second.2) := by
  refine ⟨two.inert, ?_, two.sizes.trans one.sizes⟩
  intro decision member
  rcases List.mem_append.mp member with early | late
  · exact one.moves decision early
  · exact two.moves decision late

theorem sizes_moveTo (manager : TierManager κ) (id : UInt64)
    (dest : MemorySpace) :
    (manager.moveTo id dest).cols.map (fun c => (c.id, c.bytes)) =
      manager.cols.map fun c => (c.id, c.bytes) := by
  unfold moveTo update
  rw [List.map_map]
  apply List.map_congr_left
  intro c _
  by_cases own : c.id = id
  · simp [own]
  · simp [own]

theorem Passes.move {manager : TierManager κ} (inert : manager.Inert)
    (id : UInt64) (source : MemorySpace) {dest : MemorySpace}
    (reachable : dest.Reachable) :
    Passes manager ([⟨id, source, dest⟩], manager.moveTo id dest) := by
  refine ⟨inert_moveTo inert id reachable, ?_, sizes_moveTo manager id dest⟩
  intro decision member
  rw [List.mem_singleton.mp member]
  exact reachable

/-- The size of the column an id names depends on the listed sizes only. -/
theorem nonempty_of_sizes {manager other : TierManager κ} {id : UInt64}
    (sizes : other.cols.map (fun c => (c.id, c.bytes)) =
      manager.cols.map fun c => (c.id, c.bytes))
    (nonempty : ∀ c ∈ manager.cols, c.id = id → c.bytes ≠ 0) :
    ∀ c ∈ other.cols, c.id = id → c.bytes ≠ 0 := by
  intro c member own
  have listed : (c.id, c.bytes) ∈
      manager.cols.map fun c => (c.id, c.bytes) := by
    rw [← sizes]
    exact List.mem_map.mpr ⟨c, member, rfl⟩
  obtain ⟨old, oldMember, equal⟩ := List.mem_map.mp listed
  have equalId : old.id = c.id := congrArg Prod.fst equal
  have equalBytes : old.bytes = c.bytes := congrArg Prod.snd equal
  rw [← equalBytes]
  exact nonempty old oldMember (equalId.trans own)

/-! ## The manager's calls and passes -/

section
variable [CostArith κ]

theorem inert_registerColumn {manager : TierManager κ} (inert : manager.Inert)
    (id : UInt64) {bytes : Nat}
    (size : bytes ≠ 1 ∧ bytes < 18446744073709551616) :
    (manager.registerColumn id bytes .HOST).Inert := by
  have ids := Keyed.registerColumn inert.ids id bytes .HOST
  unfold registerColumn at ids ⊢
  simp only at ids ⊢
  split
  · apply inert_update inert
    · intro c own
      exact own.symm
    · intro c _
      exact .inl rfl
    · intro c _
      exact size
  · rename_i absent
    rw [if_neg absent] at ids
    refine ⟨inert.cap, ?_, ?_, ids⟩
    · intro c member
      rcases List.mem_append.mp member with old | new
      · exact inert.tiers c old
      · rw [List.mem_singleton.mp new]
        exact .inl rfl
    · intro c member
      rcases List.mem_append.mp member with old | new
      · exact inert.sizes c old
      · rw [List.mem_singleton.mp new]
        exact size

theorem inert_age {manager : TierManager κ} (inert : manager.Inert) :
    manager.age.Inert where
  cap := inert.cap
  tiers c member := by
    obtain ⟨old, oldMember, equal⟩ := List.mem_map.mp member
    subst equal
    exact inert.tiers old oldMember
  sizes c member := by
    obtain ⟨old, oldMember, equal⟩ := List.mem_map.mp member
    subst equal
    exact inert.sizes old oldMember
  ids := Keyed.age inert.ids

theorem pickVictim_device {manager : TierManager κ} (inert : manager.Inert) :
    manager.pickVictim .DEVICE = none := by
  cases picked : manager.pickVictim .DEVICE with
  | none => rfl
  | some victim =>
      obtain ⟨member, tier, _⟩ := pickVictim_eq_some picked
      rcases inert.tiers victim member with host | cold
      · rw [host] at tier
        cases tier
      · rw [cold] at tier
        cases tier

theorem trySwapPromote_passes {manager : TierManager κ}
    (inert : manager.Inert) (cand : TierEntry κ) {dest : MemorySpace}
    (target : dest = .HOST ∨ dest = .DEVICE) (cap : Nat) :
    Passes manager (manager.trySwapPromote cand dest cap) := by
  unfold trySwapPromote
  split
  · exact Passes.none inert
  · rcases target with host | device
    · subst host
      split
      · exact Passes.none inert
      · rename_i victim _
        split
        · exact Passes.none inert
        · split
          · exact Passes.none inert
          · have below : (slowerTier .HOST).Reachable := .inr rfl
            have demoted := Passes.move inert victim.id victim.tier below
            exact demoted.append
              (Passes.move demoted.inert cand.id cand.tier (.inl rfl))
    · subst device
      rw [pickVictim_device inert]
      exact Passes.none inert

/-- A column of at least two bytes is never moved to the device tier. -/
theorem promoteOne_passes {manager : TierManager κ} (inert : manager.Inert)
    {id : UInt64} (nonempty : ∀ c ∈ manager.cols, c.id = id → c.bytes ≠ 0) :
    Passes manager (manager.promoteOne id) := by
  unfold promoteOne
  split
  · exact Passes.none inert
  · rename_i c found
    obtain ⟨member, own⟩ := find_mem found
    rcases inert.tiers c member with host | cold
    · have large : 1 < (0 + UInt64.ofNat c.bytes).toNat := by
        obtain ⟨notOne, small⟩ := inert.sizes c member
        have notZero := nonempty c member own
        rw [UInt64.zero_add, UInt64.toNat_ofNat_of_lt' small]
        omega
      have full : ¬ (manager.capacityOf (fasterTier c.tier) = 0 ∨
          (manager.residentBytes (fasterTier c.tier) +
              UInt64.ofNat c.bytes).toNat ≤
            manager.capacityOf (fasterTier c.tier)) := by
        simp only [host, fasterTier, capacityOf, inert.cap,
          residentBytes_device inert]
        omega
      simp only [if_neg full]
      apply trySwapPromote_passes inert
      rw [host]
      exact .inr rfl
    · simp only
      split
      · apply Passes.move inert
        rw [cold]
        exact .inl rfl
      · apply trySwapPromote_passes inert
        rw [cold]
        exact .inl rfl

theorem promoteAll_passes {manager : TierManager κ} (inert : manager.Inert)
    {ids : List UInt64}
    (nonempty : ∀ id ∈ ids, ∀ c ∈ manager.cols, c.id = id → c.bytes ≠ 0) :
    Passes manager (manager.promoteAll ids) := by
  induction ids generalizing manager with
  | nil => exact Passes.none inert
  | cons id later induction =>
      have first := promoteOne_passes inert (nonempty id List.mem_cons_self)
      refine first.append (induction first.inert ?_)
      intro other member
      exact nonempty_of_sizes first.sizes
        (nonempty other (List.mem_cons_of_mem id member))

theorem evict_passes {manager : TierManager κ} (inert : manager.Inert)
    (tier : MemorySpace) (cap rounds : Nat) :
    Passes manager (evict tier cap rounds manager) := by
  induction rounds generalizing manager with
  | zero => exact Passes.none inert
  | succ rounds induction =>
      unfold evict
      split
      · exact Passes.none inert
      · split
        · exact Passes.none inert
        · rename_i victim picked
          have reachable : (slowerTier victim.tier).Reachable :=
            slowerTier_reachable
              (inert.tiers victim (pickVictim_eq_some picked).1)
          have moved := Passes.move inert victim.id victim.tier reachable
          exact moved.append (induction moved.inert)

theorem evictTier_passes {manager : TierManager κ} (inert : manager.Inert)
    (tier : MemorySpace) : Passes manager (manager.evictTier tier) := by
  unfold evictTier
  split
  · exact Passes.none inert
  · exact evict_passes inert tier _ _

end

section
variable [SoundCost κ]

theorem candidates_nonempty {manager : TierManager κ} (inert : manager.Inert) :
    ∀ id ∈ manager.candidates, ∀ c ∈ manager.cols, c.id = id →
      c.bytes ≠ 0 := by
  intro id candidate c member own empty
  unfold candidates at candidate
  rw [List.mem_mergeSort] at candidate
  obtain ⟨chosen, chosenMember, chosenId⟩ := List.mem_map.mp candidate
  obtain ⟨chosenIn, worth⟩ := List.mem_filter.mp chosenMember
  have same : chosen = c :=
    List.inj_on_of_nodup_map inert.ids chosenIn member
      (chosenId.trans own.symm)
  subst same
  rw [SoundCost.empty_stays manager.costModel chosen empty
    (inert.tiers chosen chosenIn)] at worth
  cases worth

/-- A rebalance asks only for moves between the host and the cold tier. -/
theorem rebalance_passes {manager : TierManager κ} (inert : manager.Inert) :
    manager.rebalance.2.Inert ∧
      ∀ decision ∈ manager.rebalance.1, decision.dest.Reachable := by
  have aged := inert_age inert
  have promoted := promoteAll_passes aged (candidates_nonempty aged)
  have offDevice := promoted.append (evictTier_passes promoted.inert .DEVICE)
  have offHost := offDevice.append (evictTier_passes offDevice.inert .HOST)
  exact ⟨offHost.inert, offHost.moves⟩

end

end TierManager

end MatrixDB
