import MatrixDB.Tier.Column
import Mathlib.Algebra.Order.Ring.Rat
import Mathlib.Data.List.Basic

/-!
# The auto-tiering brain (`tier_manager.hpp`, `cost_model.hpp`)

Heat, benefit and cost are `double` in the source.  The manager is written
over any arithmetic with the operations it uses, so that it can be read over
`Float` and reasoned about over the rationals.  The columns are listed in the
iteration order of the source's hash map.  Ticks and sums of sizes wrap around
at 64 bits.
-/

namespace MatrixDB

/-- The arithmetic of the cost model. -/
class CostArith (κ : Type) extends Add κ, Sub κ, Mul κ, Div κ where
  ofSize : Nat → κ
  fraction : Nat → Nat → κ
  less : κ → κ → Bool
  atMost : κ → κ → Bool
  same : κ → κ → Bool
  truncate : κ → Int

open CostArith

instance : CostArith ℚ where
  ofSize := Nat.cast
  fraction above below := (above : ℚ) / (below : ℚ)
  less left right := left < right
  atMost left right := left ≤ right
  same left right := left = right
  truncate value := value.num.tdiv value.den

instance : CostArith Float where
  ofSize := Float.ofNat
  fraction above below := Float.ofNat above / Float.ofNat below
  less left right := left < right
  atMost left right := left ≤ right
  same left right := left == right
  truncate value := value.toInt64.toInt

/-! ## Costs -/

/-- `tier_physics(s).scan_bytes_per_us`. -/
def scanBytesPerUs : MemorySpace → Nat
  | .DEVICE => 240000
  | .HOST => 10000
  | .COLD => 3000
  | .UNIFIED => 240000

structure CostModel where
  unified : Bool
  deriving DecidableEq, Repr

section
variable {κ : Type} [CostArith κ]

namespace CostModel

def scanUs (space : MemorySpace) (bytes : Nat) : κ :=
  let launch : κ := if space = .DEVICE then fraction 30 1 else fraction 0 1
  launch + ofSize bytes / fraction (scanBytesPerUs space) 1

def migrationUs (model : CostModel) (source dest : MemorySpace)
    (bytes : Nat) : κ :=
  if source = dest then fraction 0 1
  else if model.unified then fraction 0 1
  else
    ofSize bytes /
      fraction (if scanBytesPerUs source < scanBytesPerUs dest
        then scanBytesPerUs source else scanBytesPerUs dest) 1

end CostModel

/-! ## The manager -/

structure MigrationDecision where
  columnId : UInt64
  source : MemorySpace
  dest : MemorySpace
  deriving DecidableEq, Repr

/-- `TierManager::Column`. -/
structure TierEntry (κ : Type) where
  id : UInt64
  bytes : Nat
  tier : MemorySpace
  heat : κ
  recentBytes : Nat
  arrivedTick : UInt64

structure TierManager (κ : Type) where
  costModel : CostModel
  deviceCap : Nat
  hostCap : Nat
  tick : UInt64
  cols : List (TierEntry κ)

def SCAN_HORIZON : Int := 8
def MIN_RESIDENCY_TICKS : UInt64 := 2

def fasterTier : MemorySpace → MemorySpace
  | .COLD => .HOST
  | .HOST => .DEVICE
  | tier => tier

def slowerTier : MemorySpace → MemorySpace
  | .DEVICE => .HOST
  | .HOST => .COLD
  | tier => tier

namespace TierEntry

def estFutureScans (c : TierEntry κ) : Int :=
  if c.bytes = 0 then 0
  else
    let scans := truncate (c.heat / ofSize c.bytes + fraction 1 2)
    if scans < 0 then 0
    else if SCAN_HORIZON < scans then SCAN_HORIZON
    else scans

def promoteBenefit (c : TierEntry κ) : κ :=
  if fasterTier c.tier = c.tier then fraction 0 1
  else
    (CostModel.scanUs c.tier c.bytes -
      CostModel.scanUs (fasterTier c.tier) c.bytes) *
        ofSize c.estFutureScans.toNat

def promoteCost (model : CostModel) (c : TierEntry κ) : κ :=
  if fasterTier c.tier = c.tier then fraction 0 1
  else model.migrationUs c.tier (fasterTier c.tier) c.bytes

def shouldPromote (model : CostModel) (c : TierEntry κ) : Bool :=
  if fasterTier c.tier = c.tier then false
  else less (fraction 3 2 * c.promoteCost model) c.promoteBenefit

def promoteNetBenefit (model : CostModel) (c : TierEntry κ) : κ :=
  c.promoteBenefit - c.promoteCost model

def keepScore (c : TierEntry κ) : κ :=
  if slowerTier c.tier = c.tier then fraction (10 ^ 300) 1
  else
    (CostModel.scanUs (slowerTier c.tier) c.bytes -
      CostModel.scanUs c.tier c.bytes) * ofSize c.estFutureScans.toNat

end TierEntry

namespace TierManager

def find (manager : TierManager κ) (id : UInt64) : Option (TierEntry κ) :=
  manager.cols.find? fun c => c.id == id

/-- Change the entry of one column. -/
def update (manager : TierManager κ) (id : UInt64)
    (change : TierEntry κ → TierEntry κ) : TierManager κ :=
  { manager with
    cols := manager.cols.map fun c => if c.id = id then change c else c }

def registerColumn (manager : TierManager κ) (id : UInt64) (bytes : Nat)
    (tier : MemorySpace) : TierManager κ :=
  let entry : TierEntry κ :=
    { id := id, bytes := bytes, tier := tier, heat := fraction 0 1
      recentBytes := 0, arrivedTick := manager.tick }
  if (manager.find id).isSome then manager.update id fun _ => entry
  else { manager with cols := manager.cols ++ [entry] }

def updateBytes (manager : TierManager κ) (id : UInt64) (bytes : Nat) :
    TierManager κ :=
  manager.update id fun c => { c with bytes := bytes }

def recordAccess (manager : TierManager κ) (id : UInt64) (bytes : Nat) :
    TierManager κ :=
  manager.update id fun c =>
    { c with recentBytes := (c.recentBytes + bytes) % 18446744073709551616 }

def residentBytes (manager : TierManager κ) (tier : MemorySpace) : UInt64 :=
  (manager.cols.filter fun c => c.tier = tier).foldl
    (fun total c => total + UInt64.ofNat c.bytes) 0

/-- Zero means unbounded. -/
def capacityOf (manager : TierManager κ) : MemorySpace → Nat
  | .DEVICE => manager.deviceCap
  | .HOST => manager.hostCap
  | _ => 0

/-- A column lands on a tier now. -/
def moveTo (manager : TierManager κ) (id : UInt64) (dest : MemorySpace) :
    TierManager κ :=
  manager.update id fun c =>
    { c with tier := dest, arrivedTick := manager.tick }

/-- The resident of a tier with the lowest keep score, past its minimum
residency; the first one in iteration order among equals. -/
def pickVictim (manager : TierManager κ) (tier : MemorySpace) :
    Option (TierEntry κ) :=
  (manager.cols.foldl
    (fun (worst : κ × Option (TierEntry κ)) c =>
      if c.tier ≠ tier then worst
      else if manager.tick - c.arrivedTick < MIN_RESIDENCY_TICKS then worst
      else if less c.keepScore worst.1 then (c.keepScore, some c)
      else worst)
    (fraction (10 ^ 301) 1, none)).2

def trySwapPromote (manager : TierManager κ) (cand : TierEntry κ)
    (dest : MemorySpace) (cap : Nat) :
    List MigrationDecision × TierManager κ :=
  if cap = 0 then ([], manager)
  else
    match manager.pickVictim dest with
    | none => ([], manager)
    | some victim =>
        if atMost cand.promoteBenefit (fraction 3 2 * victim.keepScore) then
          ([], manager)
        else if cap < (manager.residentBytes dest -
            UInt64.ofNat victim.bytes + UInt64.ofNat cand.bytes).toNat then
          ([], manager)
        else
          ([⟨victim.id, victim.tier, slowerTier dest⟩,
              ⟨cand.id, cand.tier, dest⟩],
            (manager.moveTo victim.id (slowerTier dest)).moveTo cand.id dest)

/-- Approve one candidate, if it fits or is worth a swap. -/
def promoteOne (manager : TierManager κ) (id : UInt64) :
    List MigrationDecision × TierManager κ :=
  match manager.find id with
  | none => ([], manager)
  | some c =>
      let dest := fasterTier c.tier
      let cap := manager.capacityOf dest
      if cap = 0 ∨
          (manager.residentBytes dest + UInt64.ofNat c.bytes).toNat ≤ cap then
        ([⟨c.id, c.tier, dest⟩], manager.moveTo c.id dest)
      else manager.trySwapPromote c dest cap

def promoteAll (manager : TierManager κ) :
    List UInt64 → List MigrationDecision × TierManager κ
  | [] => ([], manager)
  | id :: later =>
      let (decisions, manager) := manager.promoteOne id
      let (more, manager) := manager.promoteAll later
      (decisions ++ more, manager)

/-- Evict from a tier until it fits.  Every round takes one column out of the
tier, so as many rounds as there are columns are enough. -/
def evict (tier : MemorySpace) (cap : Nat) :
    Nat → TierManager κ → List MigrationDecision × TierManager κ
  | 0, manager => ([], manager)
  | rounds + 1, manager =>
      if (manager.residentBytes tier).toNat ≤ cap then ([], manager)
      else
        match manager.pickVictim tier with
        | none => ([], manager)
        | some victim =>
            let dest := slowerTier victim.tier
            let (more, evicted) :=
              evict tier cap rounds (manager.moveTo victim.id dest)
            (⟨victim.id, victim.tier, dest⟩ :: more, evicted)

def evictTier (manager : TierManager κ) (tier : MemorySpace) :
    List MigrationDecision × TierManager κ :=
  if manager.capacityOf tier = 0 then ([], manager)
  else evict tier (manager.capacityOf tier) manager.cols.length manager

/-- A new tick: heat absorbs the recent accesses. -/
def age (manager : TierManager κ) : TierManager κ :=
  { manager with
    tick := manager.tick + 1
    cols := manager.cols.map fun c =>
      { c with
        heat := fraction 1 2 * ofSize c.recentBytes +
          (fraction 1 1 - fraction 1 2) * c.heat
        recentBytes := 0 } }

/-- The order of `std::sort`: best net benefit first, then lowest id. -/
def precedes (manager : TierManager κ) (left right : UInt64) : Bool :=
  match manager.find left, manager.find right with
  | some a, some b =>
      let na := a.promoteNetBenefit manager.costModel
      let nb := b.promoteNetBenefit manager.costModel
      if same na nb then left < right else less nb na
  | _, _ => false

def candidates (manager : TierManager κ) : List UInt64 :=
  ((manager.cols.filter fun c => c.shouldPromote manager.costModel).map
    fun c => c.id).mergeSort fun left right => !manager.precedes right left

def rebalance (manager : TierManager κ) :
    List MigrationDecision × TierManager κ :=
  let manager := manager.age
  let (promotions, manager) := manager.promoteAll manager.candidates
  let (fromDevice, manager) := manager.evictTier .DEVICE
  let (fromHost, manager) := manager.evictTier .HOST
  (promotions ++ fromDevice ++ fromHost, manager)

end TierManager

end

end MatrixDB
