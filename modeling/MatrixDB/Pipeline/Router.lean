import MatrixDB.Engine.PointOps
import MatrixDB.Gpu.PageKernel
import MatrixDB.Gpu.ScanEngine

/-!
# Routing over two engines (`router.hpp`, `cost_model.hpp`)

Point operations go where the cost model puts them.  A scan column gets its home
when it is placed, and its scans go there.  Whatever the homes, the replies and
the store are those of the host alone.
-/

namespace MatrixDB

open Lib CostArith

/-! ## Placement -/

namespace CostModel

section
variable {κ : Type} [CostArith κ]

def hostScanUs (bytes : Nat) : κ := ofSize bytes / fraction 10000 1

/-- The transfer is zero in both memory models. -/
def deviceScanUs (model : CostModel) (bytes : Nat) : κ :=
  let transfer : κ := if model.unified then fraction 0 1 else fraction 0 1
  fraction 30 1 + transfer + ofSize bytes / fraction 240000 1

end

def placePoint : MemorySpace := .HOST

/-- `κ` is the arithmetic of the predicted times. -/
def placeScan (κ : Type) [CostArith κ] (model : CostModel)
    (gpuAvailable : Bool) (bytes : Nat) : MemorySpace :=
  if !gpuAvailable then .HOST
  else if less (model.deviceScanUs bytes : κ) (hostScanUs bytes) then .DEVICE
  else .HOST

/-- The smallest column for which the launch is worth it. -/
theorem placeScan_eq_device_iff (model : CostModel) (gpuAvailable : Bool)
    (bytes : Nat) :
    model.placeScan ℚ gpuAvailable bytes = .DEVICE ↔
      gpuAvailable = true ∧ 313044 ≤ bytes := by
  have worth : (model.deviceScanUs bytes : ℚ) < hostScanUs bytes ↔
      313044 ≤ bytes := by
    have transfer : (if model.unified then fraction 0 1 else fraction 0 1 : ℚ) =
        0 := by
      split
      · norm_num [fraction]
      · norm_num [fraction]
    unfold deviceScanUs hostScanUs
    rw [transfer]
    change (30 / 1 : ℚ) + 0 + bytes / (240000 / 1) < bytes / (10000 / 1) ↔ _
    constructor
    · intro slower
      have large : (313043 : ℚ) < bytes := by linarith
      exact Nat.succ_le_of_lt (by exact_mod_cast large)
    · intro large
      have large : (313044 : ℚ) ≤ bytes := by exact_mod_cast large
      linarith
  unfold placeScan
  cases gpuAvailable with
  | false => simp
  | true =>
      have compares : less (model.deviceScanUs bytes : ℚ) (hostScanUs bytes) =
          decide (313044 ≤ bytes) := decide_eq_decide.mpr worth
      simp [compares]

end CostModel

/-! ## The router -/

/-- `launched` counts the launches, which the environment orders. -/
structure DeviceEngine where
  store : DeviceStore
  scans : ScanCounters
  launched : Nat

/-- The orders in which the device performs its launches. -/
structure Launches where
  page : Nat → List DatabaseQuery → List PageStep
  scan : Nat → List BlockStep

def DeviceEngine.executeBatch (launches : Launches) (device : DeviceEngine)
    (batch : List DatabaseQuery) : DeviceEngine where
  store := device.store.executeBatches [launches.page device.launched batch]
  scans := device.scans
  launched := device.launched + 1

def DeviceEngine.executeScan (launches : Launches) (device : DeviceEngine)
    (q : ScanQuery) : ScanQuery × DeviceEngine :=
  let (q, scans) :=
    device.scans.executeScan (launches.scan device.launched) q
  (q, { device with scans := scans, launched := device.launched + 1 })

/-- The host's engine is `world` and `host`; the device's may be missing. -/
structure Router (κ : Type) where
  world : World
  host : HostScans κ
  gpu : Option DeviceEngine
  costModel : CostModel
  gpuAvailable : Bool
  placement : List MemorySpace

namespace Router

variable {κ : Type} [CostArith κ]

def routeBatch (asserts : Bool) (launches : Launches) (router : Router κ)
    (batch : List DatabaseQuery) : Option (Router κ) :=
  match if CostModel.placePoint = .DEVICE then router.gpu else none with
  | some device =>
      some { router with gpu := some (device.executeBatch launches batch) }
  | none =>
      ((World.machine asserts).runAll
        (router.world.engine.actions (.executeBatch batch)) router.world).map
        fun world => { router with world := world }

def placeScanColumn (router : Router κ) (bytes : Nat) : UInt64 × Router κ :=
  let home :=
    if router.gpu.isSome then
      router.costModel.placeScan κ router.gpuAvailable bytes
    else .HOST
  let placement := router.placement ++ [home]
  (UInt64.ofNat (placement.length - 1), { router with placement := placement })

/-- `none` when no column has the id: the assertion fails. -/
def routeScan (launches : Launches) (router : Router κ) (q : ScanQuery)
    (datasetId : UInt64) : Option (ScanQuery × Router κ) :=
  (router.placement[datasetId.toNat]?).bind fun home =>
    match if home = .DEVICE then router.gpu else none with
    | some device =>
        let (q, device) := device.executeScan launches q
        some (q, { router with gpu := some device })
    | none =>
        (router.host.executeScan q).map fun (q, host) =>
          (q, { router with host := host })

def homeOf (router : Router κ) (datasetId : UInt64) : Option MemorySpace :=
  router.placement[datasetId.toNat]?

end Router

inductive RouterCall where
  | placeScanColumn (bytes : Nat)
  | routeBatch (batch : List DatabaseQuery)
  | routeScan (q : ScanQuery) (datasetId : UInt64)

inductive RouterReply where
  | placed (datasetId : UInt64)
  | batched
  | scanned (q : ScanQuery)

namespace Router

variable {κ : Type} [CostArith κ]

def call (asserts : Bool) (launches : Launches) (router : Router κ) :
    RouterCall → Option (RouterReply × Router κ)
  | .placeScanColumn bytes =>
      let (datasetId, router) := router.placeScanColumn bytes
      some (.placed datasetId, router)
  | .routeBatch batch =>
      (router.routeBatch asserts launches batch).map fun router =>
        (.batched, router)
  | .routeScan q datasetId =>
      (router.routeScan launches q datasetId).map fun (q, router) =>
        (.scanned q, router)

def calls (asserts : Bool) (launches : Launches) :
    List RouterCall → Router κ → Option (List RouterReply × Router κ)
  | [], router => some ([], router)
  | next :: later, router =>
      (router.call asserts launches next).bind fun (reply, router) =>
        (calls asserts launches later router).map fun (replies, router) =>
          (reply :: replies, router)

end Router

/-! ## The host alone -/

def ScanCounters.add (left right : ScanCounters) : ScanCounters where
  scans := left.scans + right.scans
  scanResultSum := left.scanResultSum + right.scanResultSum

theorem ScanCounters.count_add (left right : ScanCounters) (c : UInt64) :
    (left.count c).add right = (left.add right).count c := by
  simp only [count, add, mk.injEq]
  constructor
  · rw [UInt64.add_assoc, UInt64.add_comm 1, ← UInt64.add_assoc]
  · rw [UInt64.add_assoc, UInt64.add_comm c, ← UInt64.add_assoc]

theorem ScanCounters.add_count (left right : ScanCounters) (c : UInt64) :
    left.add (right.count c) = (left.add right).count c := by
  simp only [count, add, mk.injEq]
  exact ⟨(UInt64.add_assoc _ _ _).symm, (UInt64.add_assoc _ _ _).symm⟩

theorem ScanCounters.add_zero (counters : ScanCounters) :
    counters.add .zero = counters := by
  simp only [add, zero, UInt64.add_zero]

/-- A device launches in orders that its grids allow. -/
def Launches.Scheduled (launches : Launches) : Prop :=
  ∀ launched, BlockReduce.Schedule deviceGrid.gridDim deviceGrid.blockDim
    (launches.scan launched)

/-- The scan is one of the column that both engines hold. -/
def RouterCall.Resident : RouterCall → Prop
  | .routeScan q _ => q.scanColumnId = 0
  | _ => True

namespace Router

variable {κ : Type} [CostArith κ]

/-- What the scans of both engines have counted. -/
def counters (router : Router κ) : ScanCounters :=
  router.host.counters.add
    ((router.gpu.map DeviceEngine.scans).getD .zero)

/-- The router of a build without a device that has run every scan itself. -/
def hostOnly (router : Router κ) : Router κ :=
  { router with
    host := { router.host with counters := router.counters }
    gpu := none
    placement := router.placement.map fun _ => .HOST }

section
variable {asserts : Bool} {launches : Launches} {router after : Router κ}

theorem hostOnly_placeScanColumn (router : Router κ) (bytes : Nat) :
    router.hostOnly.placeScanColumn bytes =
      ((router.placeScanColumn bytes).1,
        (router.placeScanColumn bytes).2.hostOnly) := by
  simp [placeScanColumn, hostOnly, counters]

omit [CostArith κ] in
theorem hostOnly_routeBatch (router : Router κ) (batch : List DatabaseQuery) :
    router.hostOnly.routeBatch asserts launches batch =
      (router.routeBatch asserts launches batch).map hostOnly := by
  have host : ¬CostModel.placePoint = .DEVICE := by decide
  unfold routeBatch
  rw [if_neg host, if_neg host, Option.map_map]
  rfl

/-- A scan that the host runs. -/
theorem hostOnly_executeScan (router : Router κ) (q : ScanQuery) :
    (router.hostOnly.host.executeScan q).map (fun (q, host) =>
        (q, { router.hostOnly with host := host })) =
      (router.host.executeScan q).map fun (q, host) =>
        (q, { router with host := host }.hostOnly) := by
  unfold HostScans.executeScan
  rw [Option.map_map, Option.map_map]
  change (router.host.catalog.executeScanQuery q).map _ = _
  congr 1
  funext ⟨q, catalog⟩
  have counted := ScanCounters.count_add router.host.counters
    ((router.gpu.map DeviceEngine.scans).getD .zero) q.transactionId
  simp only [Function.comp_apply, hostOnly, counters, counted]

theorem hostOnly_routeScan (scheduled : launches.Scheduled)
    (router : Router κ) {q : ScanQuery} (resident : q.scanColumnId = 0)
    (datasetId : UInt64) :
    router.hostOnly.routeScan launches q datasetId =
      (router.routeScan launches q datasetId).map fun (q, router) =>
        (q, router.hostOnly) := by
  have placed : router.hostOnly.placement[datasetId.toNat]? =
      (router.placement[datasetId.toNat]?).map fun _ => .HOST :=
    List.getElem?_map
  unfold routeScan
  rw [placed]
  cases router.placement[datasetId.toNat]? with
  | none => rfl
  | some home =>
      have host : ¬MemorySpace.HOST = .DEVICE := by decide
      simp only [Option.map_some, Option.bind_some, if_neg host]
      cases chosen : if home = .DEVICE then router.gpu else none with
      | none =>
          simp only [Option.map_map]
          exact hostOnly_executeScan router q
      | some device =>
          have there : router.gpu = some device := by
            split at chosen
            · exact chosen
            · cases chosen
          have launched := matrixGpuScan_eq (scheduled device.launched)
            q.scanThreshold q.scanAggOp
          have counted := ScanCounters.add_count router.host.counters
            device.scans (matrixGpuScan q.scanThreshold q.scanAggOp
              (launches.scan device.launched))
          rw [HostScans.executeScan_resident _ resident, ← launched]
          simp only [Option.map_some, DeviceEngine.executeScan,
            ScanCounters.executeScan, hostOnly, counters, there,
            Option.getD_some, counted]

theorem hostOnly_call (scheduled : launches.Scheduled) (router : Router κ)
    {next : RouterCall} (resident : next.Resident) :
    router.hostOnly.call asserts launches next =
      (router.call asserts launches next).map fun (reply, router) =>
        (reply, router.hostOnly) := by
  cases next with
  | placeScanColumn bytes =>
      unfold call
      dsimp only
      rw [hostOnly_placeScanColumn]
      rfl
  | routeBatch batch =>
      unfold call
      dsimp only
      rw [hostOnly_routeBatch, Option.map_map, Option.map_map]
      rfl
  | routeScan q datasetId =>
      unfold call
      dsimp only
      rw [hostOnly_routeScan scheduled router resident, Option.map_map,
        Option.map_map]
      rfl

end

theorem calls_hostOnly (asserts : Bool) {launches : Launches}
    (scheduled : launches.Scheduled) {program : List RouterCall}
    (resident : ∀ call ∈ program, call.Resident) (router : Router κ) :
    calls asserts launches program router.hostOnly =
      (calls asserts launches program router).map fun (replies, router) =>
        (replies, router.hostOnly) := by
  induction program generalizing router with
  | nil => rfl
  | cons next later induction =>
      have others := fun call member =>
        resident call (List.mem_cons_of_mem _ member)
      rw [calls, calls,
        hostOnly_call scheduled router (resident next List.mem_cons_self)]
      cases ran : router.call asserts launches next with
      | none => rfl
      | some result =>
          simp only [Option.map_some, Option.bind_some, induction others,
            Option.map_map]
          rfl

/-! ## Homes -/

/-- The home that the router gives to a column of a size. -/
def home (router : Router κ) (bytes : Nat) : MemorySpace :=
  if router.gpu.isSome then
    router.costModel.placeScan κ router.gpuAvailable bytes
  else .HOST

/-- The sizes of the columns that a program places. -/
def placedBytes (program : List RouterCall) : List Nat :=
  program.filterMap fun
    | .placeScanColumn bytes => some bytes
    | _ => none

/-- What no call changes: the policy, and the device's store. -/
structure SamePolicy (router after : Router κ) : Prop where
  costModel : after.costModel = router.costModel
  gpuAvailable : after.gpuAvailable = router.gpuAvailable
  gpu : after.gpu.isSome = router.gpu.isSome
  store : after.gpu.map DeviceEngine.store = router.gpu.map DeviceEngine.store

omit [CostArith κ] in
theorem SamePolicy.trans {router middle after : Router κ}
    (first : SamePolicy router middle) (second : SamePolicy middle after) :
    SamePolicy router after where
  costModel := second.costModel.trans first.costModel
  gpuAvailable := second.gpuAvailable.trans first.gpuAvailable
  gpu := second.gpu.trans first.gpu
  store := second.store.trans first.store

theorem SamePolicy.home {router after : Router κ}
    (same : SamePolicy router after) (bytes : Nat) :
    after.home bytes = router.home bytes := by
  unfold Router.home
  rw [same.costModel, same.gpuAvailable, same.gpu]

theorem call_keeps {asserts : Bool} {launches : Launches}
    {router after : Router κ} {next : RouterCall} {reply : RouterReply}
    (ran : router.call asserts launches next = some (reply, after)) :
    SamePolicy router after ∧
      after.placement =
        router.placement ++ (placedBytes [next]).map router.home := by
  cases next with
  | placeScanColumn bytes =>
      cases ran
      exact ⟨⟨rfl, rfl, rfl, rfl⟩, rfl⟩
  | routeBatch batch =>
      have host : ¬CostModel.placePoint = .DEVICE := by decide
      simp only [call, routeBatch, if_neg host, Option.map_map] at ran
      obtain ⟨world, _, same⟩ := Option.map_eq_some_iff.mp ran
      cases same
      exact ⟨⟨rfl, rfl, rfl, rfl⟩, (List.append_nil _).symm⟩
  | routeScan q datasetId =>
      obtain ⟨⟨copy, last⟩, scanned, same⟩ := Option.map_eq_some_iff.mp ran
      cases same
      obtain ⟨home, _, routed⟩ := Option.bind_eq_some_iff.mp scanned
      cases chosen : if home = .DEVICE then router.gpu else none with
      | none =>
          simp only [chosen] at routed
          obtain ⟨_, _, same⟩ := Option.map_eq_some_iff.mp routed
          cases same
          exact ⟨⟨rfl, rfl, rfl, rfl⟩, (List.append_nil _).symm⟩
      | some device =>
          have there : router.gpu = some device := by
            split at chosen
            · exact chosen
            · cases chosen
          simp only [chosen] at routed
          cases routed
          refine ⟨⟨rfl, rfl, ?_, ?_⟩, (List.append_nil _).symm⟩
          · rw [there]
            rfl
          · rw [there]
            rfl

/-- A home is given once, by size, and stays. -/
theorem calls_keep {asserts : Bool} {launches : Launches}
    {program : List RouterCall} {router after : Router κ}
    {replies : List RouterReply}
    (ran : calls asserts launches program router = some (replies, after)) :
    SamePolicy router after ∧
      after.placement =
        router.placement ++ (placedBytes program).map router.home := by
  induction program generalizing router replies with
  | nil =>
      cases ran
      exact ⟨⟨rfl, rfl, rfl, rfl⟩, (List.append_nil _).symm⟩
  | cons next later induction =>
      obtain ⟨⟨reply, middle⟩, here, rest⟩ := Option.bind_eq_some_iff.mp ran
      obtain ⟨⟨others, last⟩, there, same⟩ := Option.map_eq_some_iff.mp rest
      cases same
      obtain ⟨first, placed⟩ := call_keeps here
      obtain ⟨second, placedLater⟩ := induction there
      have homes : middle.home = router.home := funext first.home
      have both : placedBytes (next :: later) =
          placedBytes [next] ++ placedBytes later :=
        List.filterMap_append (l := [next])
      rw [placed, homes] at placedLater
      rw [both, List.map_append, ← List.append_assoc]
      exact ⟨first.trans second, placedLater⟩

/-- With exact costs, the device is the home of the large columns. -/
theorem home_eq (router : Router ℚ) (bytes : Nat) :
    router.home bytes =
      if router.gpu.isSome && router.gpuAvailable && 313044 ≤ bytes then
        .DEVICE
      else .HOST := by
  have large := CostModel.placeScan_eq_device_iff router.costModel
    router.gpuAvailable bytes
  unfold Router.home
  split
  · rename_i there
    simp only [there, Bool.true_and, Bool.and_eq_true, decide_eq_true_eq]
    split
    · rename_i device
      exact large.mpr device
    · rename_i host
      unfold CostModel.placeScan at large ⊢
      split
      · rfl
      split
      · rename_i available cheaper
        rw [if_neg available, if_pos cheaper] at large
        exact absurd (large.mp rfl) host
      · rfl
  · rename_i missing
    simp [missing]

/-- Whatever the homes and whatever the orders on the device, a router replies
as the host alone would and aborts when it would; the store, the catalog and
the counters are those of the host alone.  Each column has got its home when it
was placed, by the costs of its size, and no batch has reached the device. -/
theorem routing_transparent (asserts : Bool) {launches : Launches}
    (scheduled : launches.Scheduled) {program : List RouterCall}
    (resident : ∀ call ∈ program, call.Resident) (router : Router κ) :
    (calls asserts launches program router).map (fun (replies, router) =>
        (replies, router.hostOnly)) =
      calls asserts launches program router.hostOnly ∧
    ∀ replies after,
      calls asserts launches program router = some (replies, after) →
      after.placement =
        router.placement ++ (placedBytes program).map router.home ∧
      after.gpu.map DeviceEngine.store = router.gpu.map DeviceEngine.store := by
  refine ⟨(calls_hostOnly asserts scheduled resident router).symm, ?_⟩
  intro replies after ran
  obtain ⟨same, placed⟩ := calls_keep ran
  exact ⟨placed, same.store⟩

/-- One device, one launch at a time. -/
def oneByOne : Launches where
  page _ _ := []
  scan _ := BlockReduce.sequential 1024 255

theorem oneByOne_scheduled : oneByOne.Scheduled := by
  intro launched
  have schedule : BlockReduce.Schedule deviceGrid.gridDim deviceGrid.blockDim
      (BlockReduce.sequential 1024 255) :=
    BlockReduce.schedule_sequential 1024 255
  dsimp only [oneByOne]
  exact schedule

/-- A router over an empty host and a zeroed device. -/
def twoEngines : Router ℚ where
  world := World.initial .SYNC_EACH
  host := { catalog := Catalog.fresh 1024, counters := .zero }
  gpu := some { store := .zeroed, scans := .zero, launched := 0 }
  costModel := { unified := false }
  gpuAvailable := true
  placement := []

/-- A scan of a placed column returns. -/
theorem call_routeScan (asserts : Bool) (launches : Launches)
    {router : Router κ} {q : ScanQuery} (resident : q.scanColumnId = 0)
    {datasetId : UInt64} (placed : (router.homeOf datasetId).isSome) :
    ∃ reply after, router.call asserts launches (.routeScan q datasetId) =
      some (reply, after) ∧ after.placement = router.placement := by
  obtain ⟨home, here⟩ := Option.isSome_iff_exists.mp placed
  have found : router.placement[datasetId.toNat]? = some home := here
  have returns : (router.call asserts launches
      (.routeScan q datasetId)).isSome := by
    cases chosen : if home = .DEVICE then router.gpu else none with
    | none =>
        simp only [call, routeScan, found, Option.bind_some, chosen,
          router.host.executeScan_resident resident, Option.map_some,
          Option.isSome_some]
    | some device =>
        simp only [call, routeScan, found, Option.bind_some, chosen,
          Option.map_some, Option.isSome_some]
  obtain ⟨⟨reply, after⟩, ran⟩ := Option.isSome_iff_exists.mp returns
  exact ⟨reply, after, ran, (call_keeps ran).2.trans (List.append_nil _)⟩

/-- A small column and a large one, and a scan of each. -/
theorem routing_transparent_twice :
    ∃ replies after, calls true oneByOne
        [.placeScanColumn 262144, .placeScanColumn 67108864,
          .routeScan (Analytics.blankScan.prepared 8 0 AGG_COUNT) 0,
          .routeScan (Analytics.blankScan.prepared 8 0 AGG_COUNT) 1]
        twoEngines = some (replies, after) ∧
      after.placement = [.HOST, .DEVICE] ∧
      calls true oneByOne
        [.placeScanColumn 262144, .placeScanColumn 67108864,
          .routeScan (Analytics.blankScan.prepared 8 0 AGG_COUNT) 0,
          .routeScan (Analytics.blankScan.prepared 8 0 AGG_COUNT) 1]
        twoEngines.hostOnly = some (replies, after.hostOnly) := by
  have count := ScanQuery.scanColumnId_prepared Analytics.blankScan 8 0
    AGG_COUNT
  have resident : ∀ call ∈ [RouterCall.placeScanColumn 262144,
      .placeScanColumn 67108864,
      .routeScan (Analytics.blankScan.prepared 8 0 AGG_COUNT) 0,
      .routeScan (Analytics.blankScan.prepared 8 0 AGG_COUNT) 1],
      call.Resident := by
    simp only [List.forall_mem_cons]
    exact ⟨trivial, trivial, count, count, nofun⟩
  obtain ⟨same, keeps⟩ :=
    routing_transparent true oneByOne_scheduled resident twoEngines
  let both := ((twoEngines.placeScanColumn 262144).2.placeScanColumn 67108864).2
  have placedFirst : (both.homeOf 0).isSome := rfl
  obtain ⟨first, middle, ranFirst, placement⟩ :=
    call_routeScan true oneByOne count placedFirst
  have placedSecond : (middle.homeOf 1).isSome := by
    unfold homeOf
    rw [placement]
    rfl
  obtain ⟨second, after, ranSecond, _⟩ :=
    call_routeScan true oneByOne count placedSecond
  have ran : calls true oneByOne
      [.placeScanColumn 262144, .placeScanColumn 67108864,
        .routeScan (Analytics.blankScan.prepared 8 0 AGG_COUNT) 0,
        .routeScan (Analytics.blankScan.prepared 8 0 AGG_COUNT) 1]
      twoEngines = some ([.placed 0, .placed 1, first, second], after) := by
    have here : twoEngines.call true oneByOne (.placeScanColumn 262144) =
        some (.placed 0, (twoEngines.placeScanColumn 262144).2) := rfl
    have there : (twoEngines.placeScanColumn 262144).2.call true oneByOne
        (.placeScanColumn 67108864) = some (.placed 1, both) := rfl
    simp only [calls, here, there, ranFirst, ranSecond, Option.bind_some,
      Option.map_some]
  refine ⟨_, after, ran, ?_, ?_⟩
  · rw [(keeps _ after ran).1]
    simp only [placedBytes, List.filterMap_cons, List.filterMap_nil,
      List.map_cons, List.map_nil, home_eq]
    rfl
  · rw [← same, ran]
    rfl

end Router

end MatrixDB
