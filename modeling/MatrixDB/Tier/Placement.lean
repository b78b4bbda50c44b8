import MatrixDB.Tier.Manager

/-!
# Where the brain believes each column to be

A plan may move one column several times.  Executed in order, it takes every
column from where the manager had it before to where the manager has it
afterwards; this needs nothing of the costs or of the capacities.
-/

namespace MatrixDB

/-- The tier and the size of a column. -/
abbrev Place := MemorySpace × Nat

/-- Where a plan leaves a column that is registered. -/
def settle (plan : List MigrationDecision) (id : UInt64)
    (start : Option Place) : Option Place :=
  plan.foldl
    (fun place decision =>
      if decision.columnId = id then
        place.map fun place => (decision.dest, place.2)
      else place)
    start

theorem settle_append (earlier later : List MigrationDecision) (id : UInt64)
    (start : Option Place) :
    settle (earlier ++ later) id start =
      settle later id (settle earlier id start) :=
  List.foldl_append

namespace TierManager

variable {κ : Type}

def place (manager : TierManager κ) (id : UInt64) : Option Place :=
  (manager.find id).map fun c => (c.tier, c.bytes)

theorem find_update (manager : TierManager κ) (id other : UInt64)
    {change : TierEntry κ → TierEntry κ}
    (keepsId : ∀ c, c.id = id → (change c).id = c.id) :
    (manager.update id change).find other =
      (manager.find other).map fun c =>
        if other = id then change c else c := by
  unfold find update
  induction manager.cols with
  | nil => rfl
  | cons c cols induction =>
      have sameId : (if c.id = id then change c else c).id = c.id := by
        split
        · exact keepsId c ‹_›
        · rfl
      rw [List.map_cons, List.find?_cons, List.find?_cons, sameId]
      cases own : c.id == other with
      | false => exact induction
      | true =>
          have equal : c.id = other := beq_iff_eq.mp own
          simp only [Option.map_some, equal]

theorem place_update (manager : TierManager κ) (id other : UInt64)
    {change : TierEntry κ → TierEntry κ} {put : Place → Place}
    (keepsId : ∀ c, c.id = id → (change c).id = c.id)
    (puts : ∀ c, ((change c).tier, (change c).bytes) =
      put (c.tier, c.bytes)) :
    (manager.update id change).place other =
      (manager.place other).map fun place =>
        if other = id then put place else place := by
  unfold place
  rw [find_update manager id other keepsId, Option.map_map, Option.map_map]
  apply congrArg (Option.map · _)
  funext c
  by_cases own : other = id
  · simp only [Function.comp_apply, if_pos own, puts]
  · simp only [Function.comp_apply, if_neg own]

theorem place_moveTo (manager : TierManager κ) (id other : UInt64)
    (dest : MemorySpace) :
    (manager.moveTo id dest).place other =
      (manager.place other).map fun place =>
        if other = id then (dest, place.2) else place := by
  apply place_update
  · intro c _
    rfl
  · intro c
    rfl

theorem place_updateBytes (manager : TierManager κ) (id other : UInt64)
    (bytes : Nat) :
    (manager.updateBytes id bytes).place other =
      (manager.place other).map fun place =>
        if other = id then (place.1, bytes) else place := by
  apply place_update
  · intro c _
    rfl
  · intro c
    rfl

theorem place_recordAccess (manager : TierManager κ) (id other : UInt64)
    (bytes : Nat) :
    (manager.recordAccess id bytes).place other = manager.place other := by
  have same : (manager.recordAccess id bytes).place other =
      (manager.place other).map fun place =>
        if other = id then place else place := by
    apply place_update
    · intro c _
      rfl
    · intro c
      rfl
  simpa only [ite_self, Option.map_id'] using same

/-- One decision and the move that goes with it. -/
theorem settle_move (manager : TierManager κ) (id source dest other) :
    settle [⟨id, source, dest⟩] other (manager.place other) =
      (manager.moveTo id dest).place other := by
  rw [place_moveTo]
  by_cases own : id = other
  · simp [settle, own]
  · have different : other ≠ id := Ne.symm own
    simp [settle, own, different]

/-- Executing the plan of a pass takes every column to where the manager has
it after the pass. -/
def Tracks (manager : TierManager κ)
    (outcome : List MigrationDecision × TierManager κ) : Prop :=
  ∀ id, outcome.2.place id = settle outcome.1 id (manager.place id)

theorem Tracks.none (manager : TierManager κ) :
    Tracks manager ([], manager) := by
  intro id
  rfl

theorem Tracks.append {manager : TierManager κ}
    {first second : List MigrationDecision × TierManager κ}
    (one : Tracks manager first) (two : Tracks first.2 second) :
    Tracks manager (first.1 ++ second.1, second.2) := by
  intro id
  rw [two id, one id, settle_append]

theorem Tracks.move (manager : TierManager κ) (id : UInt64)
    (source dest : MemorySpace) :
    Tracks manager ([⟨id, source, dest⟩], manager.moveTo id dest) := by
  intro other
  rw [settle_move]

section
variable [CostArith κ]

theorem place_registerColumn (manager : TierManager κ) (id other : UInt64)
    (bytes : Nat) (tier : MemorySpace) :
    (manager.registerColumn id bytes tier).place other =
      if other = id then some (tier, bytes) else manager.place other := by
  unfold registerColumn
  simp only
  split
  · rename_i registered
    unfold place
    rw [find_update manager id other (fun c own => own.symm)]
    by_cases own : other = id
    · obtain ⟨c, found⟩ := Option.isSome_iff_exists.mp registered
      simp [own, found]
    · simp [own]
  · rename_i absent
    have missing : manager.find id = Option.none := by simpa using absent
    unfold place find
    rw [List.find?_append]
    by_cases own : other = id
    · have nowhere : manager.cols.find? (fun c => c.id == other) =
          Option.none := by
        rw [own]
        exact missing
      rw [nowhere]
      simp [own]
    · have different : ¬ id = other := Ne.symm own
      simp [own, different]

theorem place_age (manager : TierManager κ) (id : UInt64) :
    manager.age.place id = manager.place id := by
  unfold place find age
  simp only [List.find?_map, Option.map_map]
  rfl

theorem trySwapPromote_tracks (manager : TierManager κ) (cand : TierEntry κ)
    (dest : MemorySpace) (cap : Nat) :
    Tracks manager (manager.trySwapPromote cand dest cap) := by
  unfold trySwapPromote
  split
  · exact .none manager
  · split
    · exact .none manager
    · rename_i victim _
      split
      · exact .none manager
      · split
        · exact .none manager
        · exact (Tracks.move manager victim.id victim.tier _).append
            (Tracks.move _ cand.id cand.tier dest)

theorem promoteOne_tracks (manager : TierManager κ) (id : UInt64) :
    Tracks manager (manager.promoteOne id) := by
  unfold promoteOne
  split
  · exact .none manager
  · simp only
    split
    · apply Tracks.move
    · apply trySwapPromote_tracks

theorem promoteAll_tracks (manager : TierManager κ) (ids : List UInt64) :
    Tracks manager (manager.promoteAll ids) := by
  induction ids generalizing manager with
  | nil => exact .none manager
  | cons id ids induction =>
      exact (promoteOne_tracks manager id).append (induction _)

theorem evict_tracks (tier : MemorySpace) (cap rounds : Nat)
    (manager : TierManager κ) :
    Tracks manager (evict tier cap rounds manager) := by
  induction rounds generalizing manager with
  | zero => exact .none manager
  | succ rounds induction =>
      unfold evict
      split
      · exact .none manager
      · split
        · exact .none manager
        · rename_i victim _
          exact (Tracks.move manager victim.id victim.tier _).append
            (induction _)

theorem evictTier_tracks (manager : TierManager κ) (tier : MemorySpace) :
    Tracks manager (manager.evictTier tier) := by
  unfold evictTier
  split
  · exact .none manager
  · apply evict_tracks

theorem rebalance_tracks (manager : TierManager κ) :
    Tracks manager manager.rebalance := by
  have promoted := promoteAll_tracks manager.age manager.age.candidates
  have offDevice := promoted.append (evictTier_tracks _ .DEVICE)
  have offHost := offDevice.append (evictTier_tracks _ .HOST)
  intro id
  rw [← place_age manager id]
  exact offHost id

end

end TierManager

end MatrixDB
