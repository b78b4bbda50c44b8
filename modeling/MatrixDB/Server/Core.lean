import MatrixDB.Server.Wire
import MatrixDB.Engine.PointOps
import Mathlib.Data.Finset.Insert

/-!
# The request dispatcher (`server.hpp`)

`serve_core` decodes a request, asks the policy whether the principal may make
it, and runs it on the engine.  The engine has two halves that share nothing:
the catalog and the point-op store.
-/

namespace MatrixDB

open Lib CostArith

/-- One audited request. -/
structure AuditEntry where
  principal : UInt64
  kind : UInt32
  status : UInt32
  key : UInt64
  column : UInt64
  deriving DecidableEq, Repr

/-- Grants of each principal. -/
structure AccessPolicy where
  allowAll : Bool
  cols : IdMap (Finset UInt64)
  read : Finset UInt64
  write : Finset UInt64

namespace AccessPolicy

/-- A policy without grants. -/
def none : AccessPolicy :=
  { allowAll := false, cols := ∅, read := ∅, write := ∅ }

def permissive : AccessPolicy := { none with allowAll := true }

def allowColumn (policy : AccessPolicy) (principal col : UInt64) :
    AccessPolicy :=
  { policy with
    cols := policy.cols.insert principal
      (insert col ((policy.cols.lookup principal).getD ∅)) }

def allowRead (policy : AccessPolicy) (principal : UInt64) : AccessPolicy :=
  { policy with read := insert principal policy.read }

def allowWrite (policy : AccessPolicy) (principal : UInt64) : AccessPolicy :=
  { policy with write := insert principal policy.write }

def canQuery (policy : AccessPolicy) (principal col : UInt64) : Bool :=
  policy.allowAll ||
    match policy.cols.lookup principal with
    | .none => false
    | some granted => decide (col ∈ granted)

def canRead (policy : AccessPolicy) (principal : UInt64) : Bool :=
  policy.allowAll || decide (principal ∈ policy.read)

def canWrite (policy : AccessPolicy) (principal : UInt64) : Bool :=
  policy.allowAll || decide (principal ∈ policy.write)

/-- The value and the key column of a query are asked for. -/
def authorizesQuery (policy : AccessPolicy) (principal : UInt64)
    (q : MatrixQuery) : Bool :=
  policy.canQuery principal q.valueCol &&
    (!q.grouped || policy.canQuery principal q.keyCol)

def authorizes (policy : AccessPolicy) (principal : UInt64)
    (req : MatrixRequest) : Bool :=
  match req.kind with
  | .GET => policy.canRead principal
  | .PUT => policy.canWrite principal
  | .QUERY => policy.authorizesQuery principal req.query
  | .HEALTH => true
  | .STATS => true

end AccessPolicy

/-- Both halves of the engine. -/
structure CPUMockEngine (κ : Type) where
  catalog : Catalog κ
  points : World

variable {κ : Type}

/-- The first bucket at which the running count reaches the target. -/
def percentileBucket (target : UInt64) :
    List UInt64 → Nat → UInt64 → Option Nat
  | [], _, _ => none
  | count :: hist, bucket, sum =>
      if target ≤ sum + count then some bucket
      else percentileBucket target hist (bucket + 1) (sum + count)

def LatencyStats.percentileNs (stats : LatencyStats) (p : Float) : UInt64 :=
  if stats.queryCount = 0 then 0
  else
    match percentileBucket (p * stats.queryCount.toFloat).toUInt64
        stats.hist 0 0 with
    | some 0 => 0
    | some bucket => 1 <<< UInt64.ofNat bucket
    | none => stats.maxQueryNs

def matrixdbVersionU64 : UInt64 :=
  ((0 : UInt64) <<< 32) ||| ((1 : UInt64) <<< 16) ||| 0

namespace CPUMockEngine

def kvGet (engine : CPUMockEngine κ) (key : UInt64) : Option UInt64 :=
  engine.points.engine.kv.get key

def walRecords (engine : CPUMockEngine κ) : UInt64 :=
  match engine.points.engine.coldStore with
  | none => 0
  | some store => store.recordsWritten

/-- The health snapshot in its fixed order. -/
def health (engine : CPUMockEngine κ) : List UInt64 :=
  let dropped := engine.points.engine.storeOverflows
  [if dropped = 0 then 1 else 0,
    if engine.points.engine.coldStore.isSome then 1 else 0,
    UInt64.ofNat engine.catalog.columns.keys.length,
    engine.catalog.tierMgr.residentBytes .HOST,
    engine.walRecords, dropped]

/-- The metrics in their fixed order. -/
def stats (engine : CPUMockEngine κ) : List UInt64 :=
  let catalog := engine.catalog
  [catalog.coldBorrows, catalog.rebalances, catalog.migrations,
    UInt64.ofNat catalog.columns.keys.length,
    catalog.tierMgr.residentBytes .HOST,
    catalog.tierMgr.residentBytes .COLD,
    catalog.latency.queryCount, catalog.latency.totalQueryNs,
    catalog.latency.maxQueryNs, catalog.latency.percentileNs 0.50,
    catalog.latency.percentileNs 0.99, matrixdbVersionU64]

section
variable [CostArith κ]

/-- Run an authorized request; a query takes `ns` nanoseconds. -/
def dispatch (asserts : Bool) (engine : CPUMockEngine κ)
    (req : MatrixRequest) (ns : UInt64) :
    Option (MatrixResponse × CPUMockEngine κ) :=
  match req.kind with
  | .GET =>
      some ({ status := ServerStatus.OK.code
              results := (engine.kvGet req.key).toList }, engine)
  | .PUT =>
      (engine.points.runEvents asserts
        [.call .begin, .call (.txnPut req.key req.value), .call .commit]).map
        fun points =>
          ({ status := ServerStatus.OK.code, results := [] },
            { engine with points := points })
  | .QUERY =>
      (engine.catalog.executeQuery ns req.query).map fun answer =>
        ({ status := answer.1.code, results := answer.2.1 },
          { engine with catalog := answer.2.2 })
  | .HEALTH =>
      some ({ status := ServerStatus.OK.code, results := engine.health },
        engine)
  | .STATS =>
      some ({ status := ServerStatus.OK.code, results := engine.stats },
        engine)

/-- The response, the audit record and the engine afterwards. -/
def serveCore (asserts : Bool) (engine : CPUMockEngine κ)
    (policy : AccessPolicy) (principal : UInt64) (bytes : Bytes)
    (ns : UInt64) : Option (Bytes × AuditEntry × CPUMockEngine κ) :=
  match matrixDeserializeRequest bytes with
  | none =>
      let status := ServerStatus.ERR_BADREQUEST.code
      some (matrixSerializeResponse { status := status, results := [] },
        { principal := principal, kind := 0, status := status, key := 0
          column := 0 }, engine)
  | some req =>
      let entry := fun status : UInt32 =>
        { principal := principal, kind := req.kind.code, status := status
          key := req.key, column := req.query.valueCol : AuditEntry }
      if policy.authorizes principal req then
        (engine.dispatch asserts req ns).map fun answer =>
          (matrixSerializeResponse answer.1, entry answer.1.status, answer.2)
      else
        let status := ServerStatus.ERR_FORBIDDEN.code
        some (matrixSerializeResponse { status := status, results := [] },
          entry status, engine)

def matrixServe (asserts : Bool) (engine : CPUMockEngine κ)
    (policy : AccessPolicy) (principal : UInt64) (bytes : Bytes)
    (ns : UInt64) : Option (Bytes × CPUMockEngine κ) :=
  (engine.serveCore asserts policy principal bytes ns).map fun result =>
    (result.1, result.2.2)

end

end CPUMockEngine

/-! ## `ConcurrentServer::serve`, one call at a time -/

/-- How the call takes the lock first. -/
inductive LockMode where
  | shared
  | exclusive
  deriving DecidableEq, Repr

def lockMode (bytes : Bytes) : LockMode :=
  match matrixDeserializeRequest bytes with
  | some req => if req.kind = .PUT then .exclusive else .shared
  | none => .shared

/-- What a shared section ends with: a response, a response of the fast path,
which is timed, or the need for the exclusive lock. -/
inductive SharedOutcome where
  | answered (response : Bytes)
  | served (response : Bytes)
  | escalate
  deriving DecidableEq, Repr

namespace CPUMockEngine

variable [CostArith κ]

/-- The section under the shared lock.  What `matrix_serve` is asked here
changes nothing. -/
def sharedSection (asserts : Bool) (engine : CPUMockEngine κ)
    (policy : AccessPolicy) (principal : UInt64) (bytes : Bytes) :
    Option SharedOutcome :=
  let viaServe := (engine.matrixServe asserts policy principal bytes 0).map
    fun result => SharedOutcome.answered result.1
  match matrixDeserializeRequest bytes with
  | none => viaServe
  | some req =>
      if req.kind = .QUERY then
        if policy.authorizesQuery principal req.query then
          (engine.catalog.executeQuerySharedImpl req.query).map fun outcome =>
            match outcome with
            | .SERVED out =>
                .served (matrixSerializeResponse
                  { status := ServerStatus.OK.code, results := out })
            | .NEEDS_EXCLUSIVE => .escalate
        else viaServe
      else viaServe

/-- The fast path records its latency. -/
def timed (engine : CPUMockEngine κ) (ns : UInt64) : CPUMockEngine κ :=
  { engine with catalog := engine.catalog.recordQueryLatency ns }

/-- One call with nobody else around. -/
def concurrentServe (asserts : Bool) (engine : CPUMockEngine κ)
    (policy : AccessPolicy) (principal : UInt64) (bytes : Bytes)
    (ns : UInt64) : Option (Bytes × CPUMockEngine κ) :=
  match lockMode bytes with
  | .exclusive => engine.matrixServe asserts policy principal bytes ns
  | .shared => do
      let outcome ← engine.sharedSection asserts policy principal bytes
      match outcome with
      | .answered response => some (response, engine)
      | .served response => some (response, engine.timed ns)
      | .escalate => engine.matrixServe asserts policy principal bytes ns

end CPUMockEngine

end MatrixDB
