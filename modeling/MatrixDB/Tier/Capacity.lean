import MatrixDB.Tier.Eviction

/-!
# Plans and the capacities of the tiers

A promotion is approved only if the tier it goes to has room.  The tier that
takes the column displaced by a swap is not asked, and so a swap can fill the
host tier beyond its capacity.
-/

namespace MatrixDB

open CostArith

variable {κ : Type}

namespace TierManager

/-! ## The bytes in a tier -/

/-- What a column adds to the bytes of a tier. -/
def weight (tier : MemorySpace) (c : TierEntry κ) : UInt64 :=
  if c.tier = tier then UInt64.ofNat c.bytes else 0

theorem residentBytes_eq_sum (manager : TierManager κ) (tier : MemorySpace) :
    manager.residentBytes tier =
      manager.cols.foldr (fun c total => weight tier c + total) 0 := by
  have loop : ∀ (cols : List (TierEntry κ)) (start : UInt64),
      (cols.filter fun c => c.tier = tier).foldl
          (fun total c => total + UInt64.ofNat c.bytes) start =
        start + cols.foldr (fun c total => weight tier c + total) 0 := by
    intro cols
    induction cols with
    | nil => simp
    | cons c cols induction =>
        intro start
        by_cases here : c.tier = tier
        · simp [here, induction, weight, UInt64.add_assoc]
        · simp [here, induction, weight]
  rw [residentBytes, loop, UInt64.zero_add]

/-- Replacing one column by another. -/
theorem foldr_replace {A : Type} {cols : List A} {key : A → UInt64}
    (nodup : (cols.map key).Nodup) {c : A} (member : c ∈ cols)
    (replace : A → A) (weigh : A → UInt64) :
    weigh c + (cols.map fun other =>
        if key other = key c then replace other else other).foldr
          (fun other total => weigh other + total) 0 =
      weigh (replace c) +
        cols.foldr (fun other total => weigh other + total) 0 := by
  induction cols with
  | nil => cases member
  | cons head cols induction =>
      obtain ⟨absent, later⟩ := List.nodup_cons.mp nodup
      rcases List.mem_cons.mp member with first | rest
      · subst first
        have same : cols.map (fun other =>
            if key other = key c then replace other else other) = cols := by
          refine (List.map_congr_left ?_).trans (List.map_id _)
          intro other inside
          have different : key other ≠ key c := by
            intro own
            exact absent (own ▸ List.mem_map.mpr ⟨other, inside, rfl⟩)
          simp [different]
        rw [List.map_cons, if_pos rfl, same, List.foldr_cons, List.foldr_cons]
        grind
      · have different : key head ≠ key c := by
          intro own
          exact absent (own ▸ List.mem_map.mpr ⟨c, rest, rfl⟩)
        have tail := induction later rest
        rw [List.map_cons, if_neg different, List.foldr_cons, List.foldr_cons]
        grind

/-- The bytes in a tier after a move. -/
theorem residentBytes_moveTo {manager : TierManager κ}
    (keyed : manager.Keyed) {c : TierEntry κ} (member : c ∈ manager.cols)
    (dest tier : MemorySpace) :
    (manager.moveTo c.id dest).residentBytes tier =
      manager.residentBytes tier - weight tier c +
        if dest = tier then UInt64.ofNat c.bytes else 0 := by
  have replaced := foldr_replace keyed member
    (fun other => { other with tier := dest, arrivedTick := manager.tick })
    (weight tier)
  rw [residentBytes_eq_sum, residentBytes_eq_sum]
  have moved : weight tier
      { c with tier := dest, arrivedTick := manager.tick } =
      if dest = tier then UInt64.ofNat c.bytes else 0 := rfl
  rw [moved] at replaced
  unfold moveTo update
  grind

theorem residentBytes_into {manager : TierManager κ} (keyed : manager.Keyed)
    {c : TierEntry κ} (member : c ∈ manager.cols) {dest : MemorySpace}
    (enters : c.tier ≠ dest) :
    (manager.moveTo c.id dest).residentBytes dest =
      manager.residentBytes dest + UInt64.ofNat c.bytes := by
  rw [residentBytes_moveTo keyed member, weight, if_neg enters, if_pos rfl,
    UInt64.sub_zero]

theorem residentBytes_outOf {manager : TierManager κ} (keyed : manager.Keyed)
    {c : TierEntry κ} (member : c ∈ manager.cols) {dest : MemorySpace}
    (leaves : dest ≠ c.tier) :
    (manager.moveTo c.id dest).residentBytes c.tier =
      manager.residentBytes c.tier - UInt64.ofNat c.bytes := by
  rw [residentBytes_moveTo keyed member, weight, if_pos rfl, if_neg leaves,
    UInt64.add_zero]

theorem residentBytes_beside {manager : TierManager κ}
    (keyed : manager.Keyed) {c : TierEntry κ} (member : c ∈ manager.cols)
    {dest tier : MemorySpace} (off : c.tier ≠ tier) (past : dest ≠ tier) :
    (manager.moveTo c.id dest).residentBytes tier =
      manager.residentBytes tier := by
  rw [residentBytes_moveTo keyed member, weight, if_neg off, if_neg past,
    UInt64.sub_zero, UInt64.add_zero]

theorem mem_moveTo_ne {manager : TierManager κ} (keyed : manager.Keyed)
    {c other : TierEntry κ} (member : c ∈ manager.cols)
    (there : other ∈ manager.cols) (apart : c.tier ≠ other.tier)
    (dest : MemorySpace) : c ∈ (manager.moveTo other.id dest).cols := by
  have different : c.id ≠ other.id := by
    intro same
    have equal := List.inj_on_of_nodup_map keyed member there same
    exact apart (congrArg TierEntry.tier equal)
  have still : (manager.moveTo other.id dest).find c.id = some c := by
    rw [find_moveTo_ne manager different, keyed.find member]
  exact (find_mem still).1

/-! ## A pass within the capacities -/

def Within (manager : TierManager κ) (tier : MemorySpace) : Prop :=
  (manager.residentBytes tier).toNat ≤ manager.capacityOf tier

/-- Both bounded tiers are within their capacities. -/
structure Fits (manager : TierManager κ) : Prop where
  device : manager.Within .DEVICE
  host : manager.Within .HOST

/-! ### The four ways to move up -/

section
variable {manager : TierManager κ} {c victim : TierEntry κ}

theorem Fits.promoteHost (keyed : manager.Keyed) (member : c ∈ manager.cols)
    (tier : c.tier = .HOST)
    (room : (manager.residentBytes .DEVICE + UInt64.ofNat c.bytes).toNat ≤
      manager.deviceCap)
    (spared : (manager.residentBytes .HOST - UInt64.ofNat c.bytes).toNat ≤
      manager.hostCap) : (manager.moveTo c.id .DEVICE).Fits := by
  have enters : c.tier ≠ .DEVICE := by
    rw [tier]
    decide
  have leaves := residentBytes_outOf keyed member (Ne.symm enters)
  rw [tier] at leaves
  refine ⟨?_, ?_⟩
  · rw [Within, residentBytes_into keyed member enters]
    exact room
  · rw [Within, leaves]
    exact spared

theorem Fits.promoteCold (fits : manager.Fits) (keyed : manager.Keyed)
    (member : c ∈ manager.cols) (tier : c.tier = .COLD)
    (room : (manager.residentBytes .HOST + UInt64.ofNat c.bytes).toNat ≤
      manager.hostCap) : (manager.moveTo c.id .HOST).Fits := by
  have enters : c.tier ≠ .HOST := by
    rw [tier]
    decide
  have off : c.tier ≠ .DEVICE := by
    rw [tier]
    decide
  refine ⟨?_, ?_⟩
  · rw [Within, residentBytes_beside keyed member off (by decide)]
    exact fits.device
  · rw [Within, residentBytes_into keyed member enters]
    exact room

theorem Fits.swapHost (keyed : manager.Keyed) (member : c ∈ manager.cols)
    (tier : c.tier = .HOST) (there : victim ∈ manager.cols)
    (above : victim.tier = .DEVICE)
    (room : (manager.residentBytes .DEVICE - UInt64.ofNat victim.bytes +
        UInt64.ofNat c.bytes).toNat ≤ manager.deviceCap)
    (spared : (manager.residentBytes .HOST + UInt64.ofNat victim.bytes -
        UInt64.ofNat c.bytes).toNat ≤ manager.hostCap) :
    ((manager.moveTo victim.id .HOST).moveTo c.id .DEVICE).Fits := by
  have apart : c.tier ≠ victim.tier := by
    rw [tier, above]
    decide
  have still := mem_moveTo_ne keyed member there apart .HOST
  have down : MemorySpace.HOST ≠ victim.tier := by
    rw [above]
    decide
  have outOf := residentBytes_outOf keyed there down
  have into := residentBytes_into keyed there (Ne.symm down)
  rw [above] at outOf
  apply Fits.promoteHost (keyed.moveTo _ _) still tier
  · rw [outOf]
    exact room
  · rw [into]
    exact spared

theorem Fits.swapCold (fits : manager.Fits) (keyed : manager.Keyed)
    (member : c ∈ manager.cols) (tier : c.tier = .COLD)
    (there : victim ∈ manager.cols) (above : victim.tier = .HOST)
    (room : (manager.residentBytes .HOST - UInt64.ofNat victim.bytes +
        UInt64.ofNat c.bytes).toNat ≤ manager.hostCap) :
    ((manager.moveTo victim.id .COLD).moveTo c.id .HOST).Fits := by
  have apart : c.tier ≠ victim.tier := by
    rw [tier, above]
    decide
  have still := mem_moveTo_ne keyed member there apart .COLD
  have down : MemorySpace.COLD ≠ victim.tier := by
    rw [above]
    decide
  have outOf := residentBytes_outOf keyed there down
  rw [above] at outOf
  have off : victim.tier ≠ .DEVICE := by
    rw [above]
    decide
  have enters : c.tier ≠ .HOST := by
    rw [tier]
    decide
  have past : c.tier ≠ .DEVICE := by
    rw [tier]
    decide
  have moved := keyed.moveTo victim.id .COLD
  refine ⟨?_, ?_⟩
  · rw [Within, residentBytes_beside moved still past (by decide),
      residentBytes_beside keyed there off (by decide)]
    exact fits.device
  · rw [Within, residentBytes_into moved still enters, outOf]
    exact room

end

section
variable [CostArith κ]

/-- If the next candidate goes from the host tier to the device tier, then the
host tier has room for what is left in it and for the column displaced by a
swap. -/
structure SparesHost (manager : TierManager κ) (id : UInt64) : Prop where
  promoted : ∀ c, manager.find id = some c → c.tier = .HOST →
    (manager.residentBytes .DEVICE + UInt64.ofNat c.bytes).toNat ≤
      manager.deviceCap →
    (manager.residentBytes .HOST - UInt64.ofNat c.bytes).toNat ≤
      manager.hostCap
  swapped : ∀ c victim, manager.find id = some c → c.tier = .HOST →
    manager.deviceCap <
      (manager.residentBytes .DEVICE + UInt64.ofNat c.bytes).toNat →
    manager.pickVictim .DEVICE = some victim →
    ¬ atMost c.promoteBenefit (fraction 3 2 * victim.keepScore) →
    (manager.residentBytes .DEVICE - UInt64.ofNat victim.bytes +
        UInt64.ofNat c.bytes).toNat ≤ manager.deviceCap →
    (manager.residentBytes .HOST + UInt64.ofNat victim.bytes -
        UInt64.ofNat c.bytes).toNat ≤ manager.hostCap

/-- Every candidate spares the host tier in its turn. -/
def SpareHost : TierManager κ → List UInt64 → Prop
  | _, [] => True
  | manager, id :: later =>
      manager.SparesHost id ∧ SpareHost (manager.promoteOne id).2 later

theorem Promotion.fits {manager : TierManager κ} (keyed : manager.Keyed)
    (deviceBounded : manager.deviceCap ≠ 0)
    (hostBounded : manager.hostCap ≠ 0) (fits : manager.Fits) {id : UInt64}
    (promotable : manager.Promotable id) (spares : manager.SparesHost id)
    {outcome : List MigrationDecision × TierManager κ}
    (promotion : Promotion manager id outcome) : outcome.2.Fits := by
  cases promotion with
  | waits => exact fits
  | @promotes c found room =>
      have member := (find_mem found).1
      have up := promotable c found
      cases tier : c.tier with
      | DEVICE => exact absurd (by rw [tier]; rfl) up
      | UNIFIED => exact absurd (by rw [tier]; rfl) up
      | HOST =>
          rw [tier] at room
          have room := room.resolve_left deviceBounded
          exact Fits.promoteHost keyed member tier room
            (spares.promoted c found tier room)
      | COLD =>
          rw [tier] at room
          have room := room.resolve_left hostBounded
          exact fits.promoteCold keyed member tier room
  | @swaps c victim found contended picked worth room =>
      have member := (find_mem found).1
      have up := promotable c found
      obtain ⟨there, above, _⟩ := pickVictim_eq_some picked
      cases tier : c.tier with
      | DEVICE => exact absurd (by rw [tier]; rfl) up
      | UNIFIED => exact absurd (by rw [tier]; rfl) up
      | HOST =>
          rw [tier] at contended picked above room
          have full := Nat.not_le.mp (not_or.mp contended).2
          exact Fits.swapHost keyed member tier there above room
            (spares.swapped c victim found tier full picked worth room)
      | COLD =>
          rw [tier] at above room
          exact fits.swapCold keyed member tier there above room

theorem promoteAll_fits {manager : TierManager κ} (keyed : manager.Keyed)
    (deviceBounded : manager.deviceCap ≠ 0)
    (hostBounded : manager.hostCap ≠ 0) (fits : manager.Fits)
    {ids : List UInt64} (nodup : ids.Nodup)
    (promotable : ∀ id ∈ ids, manager.Promotable id)
    (spare : SpareHost manager ids) : (manager.promoteAll ids).2.Fits := by
  induction ids generalizing manager with
  | nil => exact fits
  | cons id ids induction =>
      obtain ⟨absent, later⟩ := List.nodup_cons.mp nodup
      obtain ⟨first, rest⟩ := spare
      have promotion := promoteOne_promotion manager id
      have own := promotable id List.mem_cons_self
      have moves := promotion.moves keyed own
      have deviceStill : (manager.promoteOne id).2.deviceCap ≠ 0 :=
        moves.retains.deviceCap ▸ deviceBounded
      have hostStill : (manager.promoteOne id).2.hostCap ≠ 0 :=
        moves.retains.hostCap ▸ hostBounded
      apply induction (moves.keyed keyed) deviceStill hostStill
        (promotion.fits keyed deviceBounded hostBounded fits own first) later
      · intro other member
        apply promotion.promotable own
        · intro same
          exact absent (same ▸ member)
        · exact promotable other (List.mem_cons_of_mem id member)
      · exact rest

theorem evictTier_within {manager : TierManager κ} {tier : MemorySpace}
    (within : manager.Within tier) :
    manager.evictTier tier = ([], manager) := by
  unfold evictTier
  split
  · rfl
  · cases manager.cols.length with
    | zero => rfl
    | succ rounds =>
        unfold evict
        exact if_pos within

theorem Runs.capacities {model : CostModel} {deviceCap hostCap : UInt64}
    {passes : Nat} {diary : List Arrival} {manager : TierManager κ}
    (runs : Runs model deviceCap hostCap passes diary manager) :
    manager.deviceCap = deviceCap.toNat ∧
      manager.hostCap = hostCap.toNat := by
  induction runs with
  | create => exact ⟨rfl, rfl⟩
  | registerColumn _ id bytes tier same =>
      unfold TierManager.registerColumn
      simp only
      split
      · exact same
      · exact same
  | updateBytes _ _ _ same => exact same
  | recordAccess _ _ _ same => exact same
  | rebalance before same =>
      have retains := (rebalance_moves before.dated.keyed).retains
      rw [retains.deviceCap, retains.hostCap]
      exact same
  | reorder _ _ same => exact same

end

/-! ### A swap with and without room for the displaced column -/

/-- An idle column fills the device tier, and there are two fresh ones of half
its size in the host tier; one of these two is hot. -/
def contended (hostCap : UInt64) : TierManager ℚ :=
  (((((create { unified := false } 2000000 hostCap).registerColumn
    1 2000000 .DEVICE).rebalance.2.registerColumn
      2 1000000 .HOST).registerColumn
        3 1000000 .HOST).recordAccess 2 16000000)

theorem runs_contended (hostCap : UInt64) :
    ∃ diary, Runs { unified := false } 2000000 hostCap 1 diary
      (contended hostCap) :=
  ⟨_, .recordAccess (.registerColumn (.registerColumn (.rebalance
    (.registerColumn .create 1 2000000 .DEVICE)) 2 1000000 .HOST)
    3 1000000 .HOST) 2 16000000⟩

end TierManager

end MatrixDB
